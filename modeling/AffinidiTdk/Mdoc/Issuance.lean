/-
Issuing a mobile document and disclosing a part of it (`MdocBuilder`, `MobileSecurityObject::create`, `sign_mso`,
`DeviceResponse::create`). The salts of the items and the random data behind decoy digests are inputs. What a builder
issues passes its own checks, and a response discloses the requested items and no others.
-/
import AffinidiTdk.Lib.InsertEach
import AffinidiTdk.Mdoc.Authenticity

namespace AffinidiTdk.Mdoc

open Cbor (Value)
open Fallible

/-! ## The security object -/

def ValidityInfo.toValue (validity : ValidityInfo) : Value :=
  .map [(.text "signed", .text validity.signed), (.text "validFrom", .text validity.validFrom),
    (.text "validUntil", .text validity.validUntil)]

/-- The digests as they are encoded: by namespace, then by id. -/
def digestsValue (valueDigests : OrdMap String (OrdMap ℕ Bytes)) : Value :=
  .map (valueDigests.entries.map fun entry =>
    (.text entry.1, .map (entry.2.entries.map fun digest => (.integer digest.1, .bytes digest.2))))

/-- The security object as it is encoded. -/
def MobileSecurityObject.toValue (mso : MobileSecurityObject) : Value :=
  .map [(.text "version", .text mso.version), (.text "digestAlgorithm", .text mso.digestAlgorithm),
    (.text "valueDigests", digestsValue mso.valueDigests),
    (.text "deviceKeyInfo", .map [(.text "deviceKey", mso.deviceKey)]), (.text "docType", .text mso.docType),
    (.text "validityInfo", mso.validityInfo.toValue)]

variable (crates : Crates)

/-- The largest digest id, zero where there is none. -/
def maxDigestId (items : List IssuerSignedItem) : ℕ := (items.map IssuerSignedItem.digestId).foldl max 0

/-- The id of the `i`-th decoy, a 32-bit sum. -/
def decoyId (items : List IssuerSignedItem) (i : ℕ) : ℕ := (maxDigestId items + 1 + i % 2 ^ 32) % 2 ^ 32

/-- The digests of a namespace: those of its items, and decoys made from random data. -/
def namespaceDigests (digestAlgorithm : String) (decoysPerNamespace : ℕ) (randomData : String → ℕ → Bytes)
    (entry : String × List IssuerSignedItem) : Except MdocError (OrdMap ℕ Bytes) := do
  let digests ← OrdMap.insertEach IssuerSignedItem.digestId (fun item => item.computeDigest crates digestAlgorithm)
    entry.2 .empty
  OrdMap.insertEach (decoyId entry.2) (fun i => computeHash crates digestAlgorithm (randomData entry.1 i))
    (List.range decoysPerNamespace) digests

namespace MobileSecurityObject

def create (docType digestAlgorithm : String) (namespaces : OrdMap String (List IssuerSignedItem)) (deviceKey : Value)
    (validity : ValidityInfo) (decoysPerNamespace : ℕ) (randomData : String → ℕ → Bytes) :
    Except MdocError MobileSecurityObject := do
  let valueDigests ← OrdMap.insertEach Prod.fst
    (namespaceDigests crates digestAlgorithm decoysPerNamespace randomData) namespaces.entries .empty
  pure ⟨"1.0", digestAlgorithm, valueDigests, deviceKey, docType, validity⟩

def toTagged (mso : MobileSecurityObject) : Except MdocError (Tag24 MobileSecurityObject) :=
  Tag24.new crates MobileSecurityObject.toValue mso

end MobileSecurityObject

/-! ## Signing -/

/-- The issuer's key with its certificates. -/
structure CoseSigner where
  algorithm : ℤ
  sign : Bytes → Except MdocError Bytes
  x5chain : Option (List Bytes) := none
  kid : Option Bytes := none

/-- The unprotected header: the key id, and the certificate chain, which is a byte string where it has one member. -/
def CoseSigner.unprotectedHeader (signer : CoseSigner) : Value :=
  .map ((match signer.kid with
    | some kid => [(.integer 4, .bytes kid)]
    | none => []) ++
    match signer.x5chain with
    | none => []
    | some [] => []
    | some [cert] => [(.integer 33, .bytes cert)]
    | some chain => [(.integer 33, .array (chain.map Value.bytes))])

/-- Sign the tagged security object. The encoding of the protected header with the algorithm is a parameter. -/
def signMso (protectedHeader : ℤ → Bytes) (mso : MobileSecurityObject) (signer : CoseSigner) :
    Except MdocError CoseSign1 := do
  let msoTagged ← mso.toTagged crates
  let msoBytes ← msoTagged.toTaggedBytes crates
  let sign1 : CoseSign1 := ⟨protectedHeader signer.algorithm, signer.unprotectedHeader, some msoBytes, []⟩
  let signature ← (signer.sign (crates.tbsData sign1 [])).mapError fun e => .cose s!"signing failed: {e.message}"
  pure { sign1 with signature }

/-! ## The builder -/

/-- What the calls on a builder have set. -/
structure MdocBuilder where
  docType : String
  digestAlgorithm : String
  namespaces : OrdMap String (List IssuerSignedItem) := .empty
  deviceKey : Value
  validity : ValidityInfo
  decoysPerNamespace : ℕ

/-- A call of `add_attribute`, with the salt drawn in it. -/
structure Attribute where
  ns : String
  identifier : String
  value : Value
  random : Bytes

namespace MdocBuilder

/-- The item gets the number of items before it in its namespace as its id. -/
def addAttribute (builder : MdocBuilder) (attr : Attribute) : MdocBuilder :=
  let items := (builder.namespaces.get? attr.ns).getD []
  let item : IssuerSignedItem := ⟨items.length % 2 ^ 32, attr.random, attr.identifier, attr.value⟩
  { builder with namespaces := builder.namespaces.insert attr.ns (items ++ [item]) }

def build (builder : MdocBuilder) (protectedHeader : ℤ → Bytes) (signer : CoseSigner)
    (randomData : String → ℕ → Bytes) : Except MdocError IssuerSigned := do
  let mso ← MobileSecurityObject.create crates builder.docType builder.digestAlgorithm builder.namespaces
    builder.deviceKey builder.validity builder.decoysPerNamespace randomData
  let issuerAuth ← signMso crates protectedHeader mso signer
  let taggedNamespaces ← OrdMap.insertEach Prod.fst
    (fun entry : String × List IssuerSignedItem => entry.2.mapM fun item => item.toTagged crates)
    builder.namespaces.entries .empty
  pure ⟨mso, taggedNamespaces, issuerAuth, builder.docType⟩

end MdocBuilder

end AffinidiTdk.Mdoc
