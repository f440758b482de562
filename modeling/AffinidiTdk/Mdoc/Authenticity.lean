/-
What the two checks of a response authenticate. The signature is over the security object in the payload, the
digests are compared with those of a plain field; the items of a response are authentic where the plain fields
are those of the object in the payload.
-/
import AffinidiTdk.Mdoc.Credential

namespace AffinidiTdk.Mdoc

open Fallible List
open Cbor (Value)

variable {crates : Crates} {spaces : IssuerNameSpaces} {mso signed : MobileSecurityObject} {docType : String}

/-! ## The loops -/

/-- The item is among those of the namespace. -/
def Disclosed (spaces : IssuerNameSpaces) (ns : String) (taggedItem : Tag24 IssuerSignedItem) : Prop :=
  ∃ items, (ns, items) ∈ spaces.entries ∧ taggedItem ∈ items

theorem and_then_eq_ok_iff {x y : Except MdocError Bool} :
    (do let valid ← x; if valid then y else pure false : Except MdocError Bool) = .ok true ↔ x = .ok true ∧ y =
      .ok true := by
  rw [bind_eq_ok_iff]
  constructor
  · rintro ⟨valid, hx, hy⟩
    cases valid with
    | true => exact ⟨hx, hy⟩
    | false => cases hy
  · rintro ⟨hx, hy⟩
    exact ⟨true, hx, hy⟩

variable {ns : String}

theorem verifyItems_eq_ok_iff : {items : List (Tag24 IssuerSignedItem)} →
    (verifyItems crates mso ns items = .ok true ↔ ∀ t ∈ items, mso.verifyItemDigest crates ns t.inner = .ok true)
  | [] => by simp [verifyItems, pure_eq_ok_iff]
  | t :: items => by
    rw [verifyItems, and_then_eq_ok_iff, verifyItems_eq_ok_iff, forall_mem_cons]

theorem verifyNamespaces_eq_ok_iff : {entries : List (String × List (Tag24 IssuerSignedItem))} →
    (verifyNamespaces crates mso entries = .ok true ↔
      ∀ entry ∈ entries, ∀ t ∈ entry.2, mso.verifyItemDigest crates entry.1 t.inner = .ok true)
  | [] => by simp [verifyNamespaces, pure_eq_ok_iff]
  | (ns, items) :: entries => by
    rw [verifyNamespaces, and_then_eq_ok_iff, verifyItems_eq_ok_iff, verifyNamespaces_eq_ok_iff, forall_mem_cons]

variable {t : Tag24 IssuerSignedItem}

theorem verifyDigests_spec (h : verifyNamespaces crates mso spaces.entries = .ok true)
    (ht : Disclosed spaces ns t) : mso.verifyItemDigest crates ns t.inner = .ok true := by
  obtain ⟨items, hentry, ht⟩ := ht
  exact verifyNamespaces_eq_ok_iff.1 h (ns, items) hentry t ht

/-! ## Authentic items -/

/-- The digest of the bytes that an item carries. -/
def Tag24.carriedDigest {T : Type} (crates : Crates) (tagged : Tag24 T) (algorithm : String) :
    Except MdocError Bytes := do
  let taggedBytes ← tagged.toTaggedBytes crates
  computeHash crates algorithm taggedBytes

/-- The document is of the signed type, and the signed object lists the digest of every item. -/
structure Authentic (crates : Crates) (docType : String) (spaces : IssuerNameSpaces)
    (signed : MobileSecurityObject) :
    Prop where
  docType_eq : docType = signed.docType
  listed : ∀ ns t, Disclosed spaces ns t → ∃ digests digest, signed.valueDigests.get? ns = some digests ∧
    digests.get? t.inner.digestId = some digest ∧ t.carriedDigest crates signed.digestAlgorithm = .ok digest

/-- The security object in a payload, whoever signed it. -/
def PayloadHolds (crates : Crates) (sign1 : CoseSign1) (signed : MobileSecurityObject) : Prop :=
  ∃ payload value tagged, sign1.payload = some payload ∧ crates.decode payload = .ok value ∧
    Tag24.deserialize crates.decodeMso value = .ok tagged ∧ tagged.inner = signed

/-- The fields of two objects that a document with these namespaces depends on. -/
structure SameFor (spaces : IssuerNameSpaces) (mso signed : MobileSecurityObject) : Prop where
  docType : mso.docType = signed.docType
  digestAlgorithm : mso.digestAlgorithm = signed.digestAlgorithm
  valueDigests : ∀ entry ∈ spaces.entries, mso.valueDigests.get? entry.1 = signed.valueDigests.get? entry.1

/-- The items carry the bytes they are encoded to. -/
def Canonical (crates : Crates) (spaces : IssuerNameSpaces) : Prop :=
  ∀ ns t, Disclosed spaces ns t → crates.encode t.inner.toValue = .ok t.innerBytes

/-- The plain fields go together, the plain object with the one in the payload, and the items with their bytes. -/
structure Linked (crates : Crates) (docType : String) (spaces : IssuerNameSpaces) (mso : MobileSecurityObject)
    (sign1 : CoseSign1) : Prop where
  docType_eq : docType = mso.docType
  payload : ∀ signed, PayloadHolds crates sign1 signed → SameFor spaces mso signed
  canonical : Canonical crates spaces

theorem storedDigest_eq_ok_iff {digestId : ℕ} {digest : Bytes} : signed.storedDigest ns digestId = .ok digest ↔
    ∃ digests, signed.valueDigests.get? ns = some digests ∧ digests.get? digestId = some digest := by
  rw [MobileSecurityObject.storedDigest, bind_eq_ok_iff]
  simp only [elim_throw_eq_ok_iff]

theorem verifyDigest_eq_ok_iff {digestId : ℕ} {computed : Except MdocError Bytes} : signed.verifyDigest ns digestId
    computed = .ok true ↔ ∃ digests digest, signed.valueDigests.get? ns = some digests ∧ digests.get? digestId =
    some digest ∧ computed = .ok digest := by
  rw [MobileSecurityObject.verifyDigest, bind_eq_ok_iff]
  constructor
  · rintro ⟨digest, hstored, h⟩
    obtain ⟨value, hvalue, h⟩ := bind_eq_ok_iff.1 h
    obtain ⟨digests, hdigests, hdigest⟩ := storedDigest_eq_ok_iff.1 hstored
    have hsame : value = digest := of_decide_eq_true (Except.ok.inj h)
    exact ⟨digests, digest, hdigests, hdigest, hsame ▸ hvalue⟩
  · rintro ⟨digests, digest, hdigests, hdigest, hcomputed⟩
    refine ⟨digest, storedDigest_eq_ok_iff.2 ⟨digests, hdigests, hdigest⟩, ?_⟩
    refine bind_eq_ok_iff.2 ⟨digest, hcomputed, ?_⟩
    rw [decide_eq_true rfl]
    rfl

theorem computeDigest_of_encode (h : crates.encode t.inner.toValue = .ok t.innerBytes) (algorithm : String) :
    t.inner.computeDigest crates algorithm = t.carriedDigest crates algorithm := by
  have htagged : t.inner.toTagged crates = .ok t := by
    rw [IssuerSignedItem.toTagged, Tag24.new, h]
    rfl
  rw [IssuerSignedItem.computeDigest, htagged]
  rfl

variable {verifier : CoseVerifier} {sign1 : CoseSign1}

theorem payloadHolds_of_verify (h : Mdoc.verifyIssuerAuth crates sign1 verifier = .ok signed) :
    PayloadHolds crates sign1 signed := by
  obtain ⟨-, h⟩ := unit_bind_eq_ok_iff.1 h
  obtain ⟨payload, hpayload, h⟩ := bind_eq_ok_iff.1 h
  obtain ⟨value, hvalue, h⟩ := bind_eq_ok_iff.1 h
  obtain ⟨tagged, htagged, h⟩ := bind_eq_ok_iff.1 h
  exact ⟨payload, value, tagged, elim_throw_eq_ok_iff.1 hpayload, mapError_eq_ok_iff.1 hvalue,
    mapError_eq_ok_iff.1 htagged, pure_eq_ok_iff.1 h⟩

/-- What is checked against the plain object holds of the signed one, over the bytes that the items carry. -/
theorem authentic_of_linked (hlinked : Linked crates docType spaces mso sign1)
    (hsigned : Mdoc.verifyIssuerAuth crates sign1 verifier = .ok signed)
    (hdigests : verifyNamespaces crates mso spaces.entries = .ok true) : Authentic crates docType spaces signed := by
  have hsame := hlinked.payload signed (payloadHolds_of_verify hsigned)
  refine ⟨hlinked.docType_eq.trans hsame.docType, fun ns t ht => ?_⟩
  obtain ⟨digests, digest, hget, hlisted, hcomputed⟩ := verifyDigest_eq_ok_iff.1 (verifyDigests_spec hdigests ht)
  rw [hsame.digestAlgorithm, computeDigest_of_encode (hlinked.canonical ns t ht)] at hcomputed
  obtain ⟨items, hentry, -⟩ := ht
  rw [hsame.valueDigests (ns, items) hentry] at hget
  exact ⟨digests, digest, hget, hlisted, hcomputed⟩

/-- **Authentic responses**: a response that passes both checks, and whose plain fields go with the security object
in the payload and with the bytes of the items, discloses what was signed, and so does an issuer-signed document. -/
theorem disclosure_authentic_of_linked (crates : Crates) (verifier : CoseVerifier) :
    (∀ (response : DeviceResponse) (signed : MobileSecurityObject),
      response.verifyIssuerAuth crates verifier = .ok signed → response.verifyDigests crates = .ok true →
        Linked crates response.docType response.disclosed response.mso response.issuerAuth →
          Authentic crates response.docType response.disclosed signed) ∧
      ∀ (document : IssuerSigned) (signed : MobileSecurityObject),
        document.verifyIssuerAuth crates verifier = .ok signed → document.verifyDigests crates = .ok true →
          Linked crates document.docType document.namespaces document.mso document.issuerAuth →
            Authentic crates document.docType document.namespaces signed :=
  ⟨fun _ _ hsigned hdigests hlinked => authentic_of_linked hlinked hsigned hdigests,
    fun _ _ hsigned hdigests hlinked => authentic_of_linked hlinked hsigned hdigests⟩

/-! ## A forged response -/

/-- The encoding of an item `name: Alice`. -/
def aliceBytes : Bytes :=
  [164, 104, 100, 105, 103, 101, 115, 116, 73, 68, 0, 102, 114, 97, 110, 100, 111, 109, 80, 0, 0, 0, 0, 0, 0,
    0, 0, 0, 0, 0, 0, 0, 0, 0, 0, 113, 101, 108, 101, 109, 101, 110, 116, 73, 100, 101, 110, 116, 105, 102,
    105, 101, 114, 100, 110, 97, 109, 101, 108, 101, 108, 101, 109, 101, 110, 116, 86, 97, 108, 117, 101, 101,
    65, 108, 105, 99, 101]

def aliceDigest : Bytes :=
  [62, 219, 239, 215, 55, 19, 253, 217, 249, 118, 86, 111, 88, 185, 206, 143, 229, 186, 6, 222, 68, 231, 8, 0,
    230, 3, 225, 51, 166, 19, 95, 21]

def aliceItem : Tag24 IssuerSignedItem := ⟨⟨0, List.replicate 16 0, "name", .text "Alice"⟩, aliceBytes⟩

/-- A security object of a document type with the digest of the item in a namespace. -/
def objectOf (docType ns : String) : MobileSecurityObject :=
  ⟨"1.0", "SHA-256", ⟨[(ns, ⟨[(0, aliceDigest)], pairwise_singleton _ _⟩)], pairwise_singleton _ _⟩,
    .map [], docType, ⟨"", "", ""⟩⟩

/-- The encoding of `objectOf "pid" "ns"`. -/
def objectBytes : Bytes :=
  [166, 103, 118, 101, 114, 115, 105, 111, 110, 99, 49, 46, 48, 111, 100, 105, 103, 101, 115, 116, 65, 108,
    103, 111, 114, 105, 116, 104, 109, 103, 83, 72, 65, 45, 50, 53, 54, 108, 118, 97, 108, 117, 101, 68, 105,
    103, 101, 115, 116, 115, 161, 98, 110, 115, 161, 0, 88, 32, 62, 219, 239, 215, 55, 19, 253, 217, 249, 118,
    86, 111, 88, 185, 206, 143, 229, 186, 6, 222, 68, 231, 8, 0, 230, 3, 225, 51, 166, 19, 95, 21, 109, 100,
    101, 118, 105, 99, 101, 75, 101, 121, 73, 110, 102, 111, 161, 105, 100, 101, 118, 105, 99, 101, 75, 101,
    121, 160, 103, 100, 111, 99, 84, 121, 112, 101, 99, 112, 105, 100, 108, 118, 97, 108, 105, 100, 105, 116,
    121, 73, 110, 102, 111, 163, 102, 115, 105, 103, 110, 101, 100, 96, 105, 118, 97, 108, 105, 100, 70, 114,
    111, 109, 96, 106, 118, 97, 108, 105, 100, 85, 110, 116, 105, 108, 96]

/-- The encoder, the decoder and the hash on the values of this section. -/
def aliceCrates : Crates where
  encode
    | .map _ => .ok aliceBytes
    | .tag 24 (.bytes b) => .ok ([216, 24, 88, b.length.toUInt8] ++ b)
    | _ => .error "unexpected value"
  decode bytes := .ok (.tag 24 (.bytes (bytes.drop 4)))
  decodeMso bytes := if bytes = objectBytes then .ok (objectOf "pid" "ns") else .error "unexpected bytes"
  tbsData sign1 _ := sign1.payload.getD []
  sha256 _ := aliceDigest
  sha384 := id
  sha512 := id

def signedPid : CoseSign1 := ⟨[], .map [], some ([216, 24, 88, 173] ++ objectBytes), [1]⟩

/-- The issuer signed nothing but the document. -/
def pidVerifier : CoseVerifier := fun tbsData _ => .ok (tbsData = [216, 24, 88, 173] ++ objectBytes)

def namespacesOf (ns : String) : IssuerNameSpaces := ⟨[(ns, [aliceItem])], pairwise_singleton _ _⟩

def honestResponse : DeviceResponse := ⟨"1.0", "pid", namespacesOf "ns", objectOf "pid" "ns", signedPid, 0⟩

/-- Another document type and another namespace, with a plain security object to match. -/
def forgedResponse : DeviceResponse := ⟨"1.0", "mDL", namespacesOf "other", objectOf "mDL" "other", signedPid, 0⟩

theorem pid_signed : Mdoc.verifyIssuerAuth aliceCrates signedPid pidVerifier = .ok (objectOf "pid" "ns") := by
  have htbs : aliceCrates.tbsData signedPid [] = [216, 24, 88, 173] ++ objectBytes := rfl
  have hvalid : pidVerifier (aliceCrates.tbsData signedPid []) signedPid.signature = .ok true := by
    rw [pidVerifier, decide_eq_true htbs]
  have haccept : pidVerifier.accept signedPid.signature (aliceCrates.tbsData signedPid []) = .ok () :=
    bind_eq_ok_iff.2 ⟨true, hvalid, rfl⟩
  have hmso : aliceCrates.decodeMso objectBytes = .ok (objectOf "pid" "ns") := by
    simp only [aliceCrates, if_true]
  have htagged : Tag24.deserialize aliceCrates.decodeMso (.tag 24 (.bytes objectBytes)) =
      .ok ⟨objectOf "pid" "ns", objectBytes⟩ :=
    bind_eq_ok_iff.2 ⟨_, mapError_eq_ok_iff.2 hmso, rfl⟩
  refine unit_bind_eq_ok_iff.2 ⟨mapError_eq_ok_iff.2 haccept, ?_⟩
  refine bind_eq_ok_iff.2 ⟨_, elim_throw_eq_ok_iff.2 rfl, ?_⟩
  refine bind_eq_ok_iff.2 ⟨.tag 24 (.bytes objectBytes), rfl, ?_⟩
  exact bind_eq_ok_iff.2 ⟨_, mapError_eq_ok_iff.2 htagged, rfl⟩

theorem alice_listed (docType ns : String) :
    verifyNamespaces aliceCrates (objectOf docType ns) (namespacesOf ns).entries = .ok true := by
  refine verifyNamespaces_eq_ok_iff.2 fun entry hentry t ht => ?_
  obtain rfl := mem_singleton.1 hentry
  obtain rfl := mem_singleton.1 ht
  exact verifyDigest_eq_ok_iff.2 ⟨_, _, OrdMap.get?_eq_some_iff.2 (.head _), OrdMap.get?_eq_some_iff.2 (.head _),
    rfl⟩

theorem honestResponse_canonical : Canonical aliceCrates honestResponse.disclosed := by
  rintro ns t ⟨items, hentry, ht⟩
  cases mem_singleton.1 hentry
  obtain rfl := mem_singleton.1 ht
  rfl

theorem honestResponse_authentic :
    Authentic aliceCrates honestResponse.docType honestResponse.disclosed (objectOf "pid" "ns") := by
  refine (disclosure_authentic_of_linked aliceCrates pidVerifier).1 honestResponse (objectOf "pid" "ns") pid_signed
    (alice_listed "pid" "ns") ⟨rfl, fun signed hholds => ?_, honestResponse_canonical⟩
  obtain ⟨payload, value, tagged, hpayload, hvalue, htagged, rfl⟩ := hholds
  obtain ⟨payload', value', tagged', hpayload', hvalue', htagged', hsame⟩ := payloadHolds_of_verify pid_signed
  cases hpayload.symm.trans hpayload'
  cases hvalue.symm.trans hvalue'
  cases htagged.symm.trans htagged'
  rw [hsame]
  exact ⟨rfl, rfl, fun _ _ => rfl⟩

/-- The forged response passes both checks, with a document type and a namespace that were never signed. -/
theorem forgedResponse_accepted :
    forgedResponse.verifyIssuerAuth aliceCrates pidVerifier = .ok (objectOf "pid" "ns") ∧
      forgedResponse.verifyDigests aliceCrates = .ok true ∧ forgedResponse.docType ≠ (objectOf "pid" "ns").docType ∧
      (∃ ns t, Disclosed forgedResponse.disclosed ns t ∧ (objectOf "pid" "ns").valueDigests.get? ns = none) ∧
      ¬Authentic aliceCrates forgedResponse.docType forgedResponse.disclosed (objectOf "pid" "ns") := by
  have htype : forgedResponse.docType ≠ (objectOf "pid" "ns").docType := by decide
  refine ⟨pid_signed, alice_listed "mDL" "other", htype, ⟨"other", aliceItem, ⟨_, .head _, .head _⟩, by decide⟩, ?_⟩
  exact fun hauthentic => htype hauthentic.docType_eq

end AffinidiTdk.Mdoc
