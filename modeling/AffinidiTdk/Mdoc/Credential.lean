/-
Mobile documents (`affinidi-mdoc`, `tag24.rs`, `issuer_signed_item.rs`, `mso.rs`, `cose.rs`,
`issuer_signed.rs`): items, the security object with their digests, its signature, and the two checks of a
response. The hash functions, the CBOR encoder, the decoder of the security object and the signature structure
are parameters.
-/
import AffinidiTdk.Lib.Cbor
import AffinidiTdk.Lib.Except
import AffinidiTdk.Lib.OrdMap
import Mathlib.Data.String.Basic

namespace AffinidiTdk.Mdoc

open Cbor (Value)

abbrev Bytes := List UInt8

/-- The error kinds of the crate. -/
inductive MdocError
  | cbor (msg : String)
  | cose (msg : String)
  | invalidMso (msg : String)
  | invalidNamespace (msg : String)
  | digestMismatch (msg : String)
  | deviceAuth (msg : String)
  | sessionTranscript (msg : String)

/-- The error as it is displayed. -/
def MdocError.message : MdocError → String
  | cbor msg => s!"CBOR error: {msg}"
  | cose msg => s!"COSE error: {msg}"
  | invalidMso msg => s!"Invalid MSO: {msg}"
  | invalidNamespace msg => s!"Invalid namespace: {msg}"
  | digestMismatch msg => s!"Digest mismatch: {msg}"
  | deviceAuth msg => s!"Device auth error: {msg}"
  | sessionTranscript msg => s!"Session transcript error: {msg}"

/-! ## Encoded items -/

/-- A value with the bytes it was decoded from. -/
structure Tag24 (T : Type) where
  inner : T
  innerBytes : Bytes

/-- A data element with the salt of its digest. -/
structure IssuerSignedItem where
  digestId : ℕ
  random : Bytes
  elementIdentifier : String
  elementValue : Value

/-- The dates of the credential. -/
structure ValidityInfo where
  signed : String
  validFrom : String
  validUntil : String

/-- The security object: the digests of the items by namespace and id. -/
structure MobileSecurityObject where
  version : String
  digestAlgorithm : String
  valueDigests : OrdMap String (OrdMap ℕ Bytes)
  deviceKey : Value
  docType : String
  validityInfo : ValidityInfo

/-- A COSE signature with its headers. -/
structure CoseSign1 where
  protectedHeader : Bytes
  unprotectedHeader : Value
  payload : Option Bytes
  signature : Bytes

/-- What is used of other crates. `tbsData` is what a signature is made over, for some additional data. -/
structure Crates where
  encode : Value → Except String Bytes
  decode : Bytes → Except String Value
  decodeMso : Bytes → Except String MobileSecurityObject
  tbsData : CoseSign1 → Bytes → Bytes
  sha256 : Bytes → Bytes
  sha384 : Bytes → Bytes
  sha512 : Bytes → Bytes

/-- An item as it is encoded. -/
def IssuerSignedItem.toValue (item : IssuerSignedItem) : Value :=
  .map [(.text "digestID", .integer item.digestId), (.text "random", .bytes item.random),
    (.text "elementIdentifier", .text item.elementIdentifier), (.text "elementValue", item.elementValue)]

variable (crates : Crates)

namespace Tag24

variable {T : Type}

/-- Encode a value, given its data item. -/
def new (toValue : T → Value) (inner : T) : Except MdocError (Tag24 T) := do
  let innerBytes ← (crates.encode (toValue inner)).mapError fun e => .cbor s!"Tag24 encoding: {e}"
  pure ⟨inner, innerBytes⟩

/-- The bytes that a digest is made over. -/
def toTaggedBytes (tagged : Tag24 T) : Except MdocError Bytes :=
  (crates.encode (.tag 24 (.bytes tagged.innerBytes))).mapError fun e => .cbor s!"Tag24 tagged encoding: {e}"

/-- Decode a tagged byte string, or one without the tag. -/
def deserialize (decodeInner : Bytes → Except String T) : Value → Except String (Tag24 T)
  | .tag 24 (.bytes innerBytes) => do
    let inner ← (decodeInner innerBytes).mapError fun e => s!"Tag24 inner decode: {e}"
    pure ⟨inner, innerBytes⟩
  | .tag 24 _ => throw "Tag24 inner must be bytes"
  | .bytes innerBytes => do
    let inner ← (decodeInner innerBytes).mapError fun e => s!"Tag24 bytes decode: {e}"
    pure ⟨inner, innerBytes⟩
  | _ => throw "expected Tag(24, bstr) or bstr"

end Tag24

/-! ## Digests -/

def computeHash (algorithm : String) (data : Bytes) : Except MdocError Bytes :=
  match algorithm with
  | "SHA-256" => pure (crates.sha256 data)
  | "SHA-384" => pure (crates.sha384 data)
  | "SHA-512" => pure (crates.sha512 data)
  | _ => throw (.invalidMso s!"unsupported digest algorithm: {algorithm}")

def IssuerSignedItem.toTagged (item : IssuerSignedItem) : Except MdocError (Tag24 IssuerSignedItem) :=
  Tag24.new crates IssuerSignedItem.toValue item

/-- The digest of an item: the item is encoded for it. -/
def IssuerSignedItem.computeDigest (item : IssuerSignedItem) (algorithm : String) : Except MdocError Bytes := do
  let tagged ← item.toTagged crates
  let taggedBytes ← tagged.toTaggedBytes crates
  computeHash crates algorithm taggedBytes

namespace MobileSecurityObject

/-- The digest that is stored for an id in a namespace. -/
def storedDigest (mso : MobileSecurityObject) (ns : String) (digestId : ℕ) : Except MdocError Bytes := do
  let nsDigests ← (mso.valueDigests.get? ns).elim (throw (.invalidNamespace s!"namespace not found: {ns}")) pure
  (nsDigests.get? digestId).elim (throw (.digestMismatch s!"digest_id {digestId} not found")) pure

/-- Whether the stored digest is the one that was computed. -/
def verifyDigest (mso : MobileSecurityObject) (ns : String) (digestId : ℕ) (computed : Except MdocError Bytes) :
    Except MdocError Bool := do
  let stored ← mso.storedDigest ns digestId
  let computed ← computed
  pure (computed = stored)

def verifyItemDigest (mso : MobileSecurityObject) (ns : String) (item : IssuerSignedItem) : Except MdocError Bool :=
  mso.verifyDigest ns item.digestId (item.computeDigest crates mso.digestAlgorithm)

end MobileSecurityObject

/-! ## The signature of the issuer -/

abbrev CoseVerifier := Bytes → Bytes → Except MdocError Bool

/-- Whether the verifier accepts the signature; its refusal is an error. -/
def CoseVerifier.accept (verifier : CoseVerifier) (signature tbsData : Bytes) : Except MdocError Unit := do
  let valid ← verifier tbsData signature
  if valid then pure () else throw (.cose "signature invalid")

/-- Check the signature, and decode the security object from what was signed. -/
def verifyIssuerAuth (sign1 : CoseSign1) (verifier : CoseVerifier) : Except MdocError MobileSecurityObject := do
  (verifier.accept sign1.signature (crates.tbsData sign1 [])).mapError fun e =>
    .cose s!"verification failed: {e.message}"
  let payload ← sign1.payload.elim (throw (.cose "COSE_Sign1 has no payload")) pure
  let value ← (crates.decode payload).mapError fun e => .cbor s!"MSO decode: {e}"
  let tagged ← (Tag24.deserialize crates.decodeMso value).mapError fun e => .cbor s!"MSO decode: {e}"
  pure tagged.inner

/-! ## Documents and responses -/

/-- The items by namespace. -/
abbrev IssuerNameSpaces := OrdMap String (List (Tag24 IssuerSignedItem))

/-- An issued credential. -/
structure IssuerSigned where
  mso : MobileSecurityObject
  namespaces : IssuerNameSpaces
  issuerAuth : CoseSign1
  docType : String

/-- What a holder presents: some of the items under the issuer's signature. -/
structure DeviceResponse where
  version : String
  docType : String
  disclosed : IssuerNameSpaces
  mso : MobileSecurityObject
  issuerAuth : CoseSign1
  status : ℕ

/-- The loop over the items of a namespace, which ends at the first wrong digest. -/
def verifyItems (mso : MobileSecurityObject) (ns : String) : List (Tag24 IssuerSignedItem) → Except MdocError Bool
  | [] => pure true
  | taggedItem :: rest => do
    let valid ← mso.verifyItemDigest crates ns taggedItem.inner
    if valid then verifyItems mso ns rest else pure false

/-- The loop over the namespaces. -/
def verifyNamespaces (mso : MobileSecurityObject) :
    List (String × List (Tag24 IssuerSignedItem)) → Except MdocError Bool
  | [] => pure true
  | (ns, items) :: rest => do
    let valid ← verifyItems crates mso ns items
    if valid then verifyNamespaces mso rest else pure false

namespace IssuerSigned

def verifyDigests (signed : IssuerSigned) : Except MdocError Bool :=
  verifyNamespaces crates signed.mso signed.namespaces.entries

def verifyIssuerAuth (signed : IssuerSigned) (verifier : CoseVerifier) : Except MdocError MobileSecurityObject :=
  Mdoc.verifyIssuerAuth crates signed.issuerAuth verifier

end IssuerSigned

namespace DeviceResponse

def verifyDigests (response : DeviceResponse) : Except MdocError Bool :=
  verifyNamespaces crates response.mso response.disclosed.entries

def verifyIssuerAuth (response : DeviceResponse) (verifier : CoseVerifier) : Except MdocError MobileSecurityObject :=
  Mdoc.verifyIssuerAuth crates response.issuerAuth verifier

/-- The items of a namespace that are asked for. -/
def select (signed : IssuerSigned) (disclosed : IssuerNameSpaces) (request : String × List String) :
    IssuerNameSpaces :=
  match signed.namespaces.get? request.1 with
  | some items =>
    let selected := items.filter fun t => t.inner.elementIdentifier ∈ request.2
    if selected = [] then disclosed else disclosed.insert request.1 selected
  | none => disclosed

/-- A response with the requested attributes. -/
def create (signed : IssuerSigned) (requested : OrdMap String (List String)) : DeviceResponse :=
  ⟨"1.0", signed.docType, requested.entries.foldl (select signed) .empty, signed.mso, signed.issuerAuth, 0⟩

end DeviceResponse

end AffinidiTdk.Mdoc
