/-
Data Integrity proofs (`affinidi-data-integrity`, `lib.rs`, `crypto_suites.rs`, `suite_ops.rs`): the
verification of a proof over a document, with the canonicalization of its suite. Signature schemes, the
SHA-256 digest, multibase, dates and the JSON canonicalization are parameters.
-/
import AffinidiTdk.Jsonld.Added
import AffinidiTdk.Rdf.Canonical

namespace AffinidiTdk.DataIntegrity

open AffinidiTdk.Rdf AffinidiTdk.Jsonld

/-! ## Suites -/

/-- The suites that are built in. -/
inductive CryptoSuite
  | eddsaJcs2022
  | eddsaRdfc2022
  | bbs2023
  | mlDsa44Jcs2024
  | mlDsa44Rdfc2024
  | slhDsa128Jcs2024
  | slhDsa128Rdfc2024
  deriving DecidableEq

/-- How a suite canonicalizes a document. -/
inductive Canonicalization
  | jcs
  | rdfc
  | custom
  deriving DecidableEq

/-- A signature that cannot be read, or one that does not fit. -/
inductive SignatureFailure
  | malformed
  | invalid
  deriving DecidableEq

/-- The error kinds of the crate. -/
inductive DataIntegrityError
  | unsupportedCryptoSuite (name : String)
  | invalidSignature (suite : CryptoSuite) (reason : SignatureFailure)
  | invalidPublicKey (len : ℕ) (reason : String)
  | canonicalization (msg : String)
  | malformedProof (msg : String)
  | conformance (msg : String)
  deriving DecidableEq

/-- What the verification takes from elsewhere. Dates are instants on one scale. -/
structure Primitives where
  bundled : Bundled
  doubles : Doubles
  digest : Text → List UInt8
  jcs : Json → Except String Text
  multibaseDecode : String → Except String (List UInt8)
  parseDate : String → Except String ℤ
  ed25519Key : List UInt8 → Bool
  ed25519Signature : List UInt8 → Bool
  ed25519Verify : List UInt8 → List UInt8 → List UInt8 → Bool
  mlDsa44Verify : List UInt8 → List UInt8 → List UInt8 → Bool
  slhDsaVerify : List UInt8 → List UInt8 → List UInt8 → Bool

namespace CryptoSuite

def name : CryptoSuite → String
  | eddsaJcs2022 => "eddsa-jcs-2022"
  | eddsaRdfc2022 => "eddsa-rdfc-2022"
  | bbs2023 => "bbs-2023"
  | mlDsa44Jcs2024 => "mldsa44-jcs-2024"
  | mlDsa44Rdfc2024 => "mldsa44-rdfc-2024"
  | slhDsa128Jcs2024 => "slhdsa128-jcs-2024"
  | slhDsa128Rdfc2024 => "slhdsa128-rdfc-2024"

def canonicalization : CryptoSuite → Canonicalization
  | eddsaJcs2022 | mlDsa44Jcs2024 | slhDsa128Jcs2024 => .jcs
  | eddsaRdfc2022 | mlDsa44Rdfc2024 | slhDsa128Rdfc2024 => .rdfc
  | bbs2023 => .custom

def isRdfc (suite : CryptoSuite) : Bool := suite.canonicalization = .rdfc

end CryptoSuite

def eddsaVerify (prims : Primitives) (key data sig : List UInt8) : Except DataIntegrityError Unit :=
  if prims.ed25519Key key = false then
    throw (.invalidPublicKey key.length "invalid Ed25519 public key bytes")
  else if prims.ed25519Signature sig = false then throw (.invalidSignature .eddsaJcs2022 .malformed)
  else if prims.ed25519Verify key data sig = false then throw (.invalidSignature .eddsaJcs2022 .invalid)
  else pure ()

/-- Verify a signature with the scheme of the suite. -/
def CryptoSuite.verify (prims : Primitives) (suite : CryptoSuite) (key data sig : List UInt8) :
    Except DataIntegrityError Unit :=
  match suite with
  | eddsaJcs2022 | eddsaRdfc2022 => eddsaVerify prims key data sig
  | bbs2023 =>
    throw (.unsupportedCryptoSuite
      "bbs-2023 verification uses bbs_2023_transform::verify_derived_proof, not CryptoSuiteOps::verify")
  | mlDsa44Jcs2024 | mlDsa44Rdfc2024 =>
    if prims.mlDsa44Verify key data sig then pure () else throw (.invalidSignature suite .invalid)
  | slhDsa128Jcs2024 | slhDsa128Rdfc2024 =>
    if prims.slhDsaVerify key data sig then pure () else throw (.invalidSignature suite .invalid)

/-! ## Proofs -/

/-- A proof with its options. -/
structure DataIntegrityProof where
  type_ : String
  cryptosuite : CryptoSuite
  created : Option String
  verificationMethod : String
  proofPurpose : String
  proofValue : Option String
  context : Option (List String)

/-- The proof as JSON; what is not set is left out. -/
def DataIntegrityProof.toJson (proof : DataIntegrityProof) : Json :=
  .obj ((proof.context.map fun urls => ("@context", Json.arr (urls.map Json.str))).toList ++
    (proof.created.map fun created => ("created", Json.str created)).toList ++
    [("cryptosuite", .str proof.cryptosuite.name), ("proofPurpose", .str proof.proofPurpose)] ++
    (proof.proofValue.map fun value => ("proofValue", Json.str value)).toList ++
    [("type", .str proof.type_), ("verificationMethod", .str proof.verificationMethod)])

/-- What the verifier asks of a proof beyond its signature. -/
structure VerifyOptions where
  expectedContext : Option (List String)
  allowedSuites : List CryptoSuite

/-! ## Hashing -/

def hexEncode (bytes : List UInt8) : Text :=
  bytes.flatMap fun byte => [Json.hexLower (byte.toNat / 16), Json.hexLower (byte.toNat % 16)]

def RdfError.message : RdfError → String
  | .nQuadsParseError msg => s!"N-Quads parse error: {msg}"
  | .canonicalizationError msg => s!"Canonicalization error: {msg}"
  | .jsonLdExpansionError msg => s!"JSON-LD expansion error: {msg}"
  | .contextError msg => s!"Context error: {msg}"
  | .toRdfError msg => s!"To-RDF conversion error: {msg}"

/-- The message of a canonicalization that stopped; it is never for want of fuel. -/
def haltMessage : Halt → String
  | .error e => RdfError.message e
  | .deep => ""

/-- Expand a document (in lenient mode), canonicalize the dataset and hash the canonical text; an error is
its message. -/
def expandCanonicalizeAndHash (prims : Primitives) (order : HashOrder) (document : Json) :
    Except String (List UInt8) := do
  let dataset ← (expandAndToRdf prims.bundled prims.doubles document).mapError RdfError.message
  let text ← (canonicalize (fun text => hexEncode (prims.digest text)) order dataset).mapError haltMessage
  pure (prims.digest text)

/-- The order of the hash maps while the document and while the proof is canonicalized. -/
structure Orders where
  document : HashOrder
  proofConfig : HashOrder

def hashingRdfc (prims : Primitives) (orders : Orders) (document proofConfig : Json) :
    Except DataIntegrityError (List UInt8) := do
  let docHash ← (expandCanonicalizeAndHash prims orders.document document).mapError fun e =>
    .canonicalization s!"RDFC document hash: {e}"
  let proofHash ← (expandCanonicalizeAndHash prims orders.proofConfig proofConfig).mapError fun e =>
    .canonicalization s!"RDFC proof config hash: {e}"
  pure (proofHash ++ docHash)

def hashingJcs (prims : Primitives) (transformedDocument canonicalProofConfig : Text) : List UInt8 :=
  prims.digest canonicalProofConfig ++ prims.digest transformedDocument

/-- The data that is signed, with the canonicalization of the suite. -/
def hashData (prims : Primitives) (orders : Orders) (signedDoc : Json) (proofConfig : DataIntegrityProof) :
    Except DataIntegrityError (List UInt8) := do
  if proofConfig.cryptosuite.isRdfc then hashingRdfc prims orders signedDoc proofConfig.toJson
  else if proofConfig.cryptosuite = .bbs2023 then
    throw (.unsupportedCryptoSuite
      "bbs-2023 derived proofs are verified via bbs_2023_transform::verify_derived_proof (or verify_pseudonym_derived_proof), not the generic verify path")
  else
    let jcsDoc ← (prims.jcs signedDoc).mapError fun e => .canonicalization s!"document: {e}"
    let jcsProofConfig ← (prims.jcs proofConfig.toJson).mapError fun e => .canonicalization s!"proof config: {e}"
    pure (hashingJcs prims jcsDoc jcsProofConfig)

/-! ## Verification -/

def checkCreated (prims : Primitives) (now : ℤ) (created : Option String) : Except DataIntegrityError Unit :=
  match created with
  | none => pure ()
  | some text => do
    let created ← (prims.parseDate text).mapError fun e => .conformance s!"Invalid created date: {e}"
    if created > now then throw (.conformance "Created date is in the future") else pure ()

/-- The bytes of the signature. -/
def decodeProofValue (prims : Primitives) (proof : DataIntegrityProof) : Except DataIntegrityError (List UInt8) :=
  match proof.proofValue with
  | none => throw (.malformedProof "proofValue is missing in the proof")
  | some value => (prims.multibaseDecode value).mapError fun e => .malformedProof s!"Invalid proof value: {e}"

/-- Verify a proof over a document at a time. -/
def verifyProofInternal (prims : Primitives) (orders : Orders) (now : ℤ) (proof : DataIntegrityProof)
    (signedDoc : Json) (publicKeyBytes : List UInt8) (options : VerifyOptions) : Except DataIntegrityError Unit := do
  if options.allowedSuites ≠ [] ∧ proof.cryptosuite ∉ options.allowedSuites then
    throw (.conformance s!"cryptosuite {proof.cryptosuite.name} is not in the caller's allowed suites")
  if options.expectedContext ≠ none ∧ proof.context ≠ options.expectedContext then
    throw (.conformance "Document context does not match proof context")
  let proofValue ← decodeProofValue prims proof
  -- the proof value is not part of what was signed
  let proofConfig := { proof with proofValue := none }
  if proofConfig.type_ ≠ "DataIntegrityProof" then
    throw (.conformance "Invalid proof type, expected 'DataIntegrityProof'")
  checkCreated prims now proofConfig.created
  let data ← hashData prims orders signedDoc proofConfig
  proofConfig.cryptosuite.verify prims publicKeyBytes data proofValue

/-- Verify a proof with the bytes of a public key. -/
def verifyWithPublicKey (prims : Primitives) (orders : Orders) (now : ℤ) (proof : DataIntegrityProof)
    (dataDoc : Json) (publicKeyBytes : List UInt8) (options : VerifyOptions) : Except DataIntegrityError Unit :=
  verifyProofInternal prims orders now proof dataDoc publicKeyBytes options

end AffinidiTdk.DataIntegrity
