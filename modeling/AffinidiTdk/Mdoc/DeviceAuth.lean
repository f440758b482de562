/-
Device authentication (`device_auth.rs`, `DeviceResponse::create_with_device_auth` and `verify_device_auth`). The
device signs the session transcript, the document type and its namespaces; the verifier decodes the namespaces it
received, leniently, and encodes them again for the check. So a signature covers every byte string that decodes to
what was signed, and the received bytes are the signed ones exactly where they are their own encoding.
-/
import AffinidiTdk.Mdoc.Engagement
import AffinidiTdk.Mdoc.Issuance

namespace AffinidiTdk.Mdoc

open Cbor (Value)
open Fallible

/-! ## What is signed -/

/-- Values by namespace and identifier. -/
abbrev DeviceNameSpaces := OrdMap String (OrdMap String Value)

/-- What the device signs. -/
structure DeviceAuthentication where
  sessionTranscript : SessionTranscript
  docType : String
  deviceNamespaces : DeviceNameSpaces

def encodeDeviceNamespaces (namespaces : DeviceNameSpaces) : Value :=
  .map (namespaces.entries.map fun entry =>
    (.text entry.1, .map (entry.2.entries.map fun item => (.text item.1, item.2))))

variable (crates : Crates)

def encodeNamespacesBytes (namespaces : DeviceNameSpaces) : Except MdocError Bytes :=
  (crates.encode (encodeDeviceNamespaces namespaces)).mapError fun e => .deviceAuth s!"DeviceNameSpaces encoding: {e}"

namespace DeviceAuthentication

def toCborValue (auth : DeviceAuthentication) : Except MdocError Value := do
  let nsBytes ← encodeNamespacesBytes crates auth.deviceNamespaces
  pure (.array [.text "DeviceAuthentication", auth.sessionTranscript.toCborValue, .text auth.docType,
    .tag 24 (.bytes nsBytes)])

def toDeviceAuthenticationBytes (auth : DeviceAuthentication) : Except MdocError Bytes := do
  let value ← auth.toCborValue crates
  let innerBytes ← (crates.encode value).mapError fun e => .deviceAuth s!"DeviceAuthentication encoding: {e}"
  (crates.encode (.tag 24 (.bytes innerBytes))).mapError fun e => .deviceAuth s!"Tag24 wrapping: {e}"

end DeviceAuthentication

/-! ## Signing and verifying -/

/-- The MAC of a device, without its payload. -/
structure CoseMac0Tag where
  protectedHeader : Bytes
  tag : Bytes

/-- A device authenticates by a signature or by a MAC. -/
inductive DeviceAuth
  | signature (sign1 : CoseSign1)
  | mac (tag : CoseMac0Tag)

/-- The encoded namespaces of the device and its authentication. -/
structure DeviceSigned where
  namespacesBytes : Bytes
  deviceAuth : DeviceAuth

/-- What is used of the COSE crate: the encoding of the protected header with an algorithm, and what is signed for a
payload that is not in the signature, with some additional data. -/
structure Coset where
  protectedHeader : ℤ → Bytes
  tbsDetached : CoseSign1 → Bytes → Bytes → Bytes

variable (coset : Coset)

namespace DeviceSigned

def sign (auth : DeviceAuthentication) (signer : CoseSigner) : Except MdocError DeviceSigned := do
  let authBytes ← auth.toDeviceAuthenticationBytes crates
  let namespacesBytes ← encodeNamespacesBytes crates auth.deviceNamespaces
  let sign1 : CoseSign1 := ⟨coset.protectedHeader signer.algorithm, .map [], none, []⟩
  let signature ← (signer.sign (coset.tbsDetached sign1 authBytes [])).mapError fun e =>
    .deviceAuth s!"signing failed: {e.message}"
  pure ⟨namespacesBytes, .signature { sign1 with signature }⟩

/-- Whether the verifier accepts the signature of the device; its refusal is an error. -/
def acceptDevice (verifier : CoseVerifier) (signature tbsData : Bytes) : Except MdocError Unit := do
  let valid ← verifier tbsData signature
  if valid then pure () else throw (.deviceAuth "signature invalid")

def verify (deviceSigned : DeviceSigned) (auth : DeviceAuthentication) (verifier : CoseVerifier) :
    Except MdocError Bool := do
  let authBytes ← auth.toDeviceAuthenticationBytes crates
  match deviceSigned.deviceAuth with
  | .signature sign1 =>
    (acceptDevice verifier sign1.signature (coset.tbsDetached sign1 authBytes [])).mapError fun e =>
      .deviceAuth s!"verification failed: {e.message}"
    pure true
  | .mac _ => throw (.deviceAuth "use verify_mac() for MAC-based device auth")

end DeviceSigned

/-! ## Decoding the namespaces -/

/-- The items of a namespace: entries under anything but a text are passed over, a later entry replaces an earlier
one. -/
def decodeItems : List (Value × Value) → OrdMap String Value → OrdMap String Value
  | [], items => items
  | (.text id, iv) :: rest, items => decodeItems rest (items.insert id iv)
  | _ :: rest, items => decodeItems rest items

/-- The namespaces, read in the same way; what is no map is passed over. -/
def decodeEntries : List (Value × Value) → DeviceNameSpaces → DeviceNameSpaces
  | [], result => result
  | (.text ns, .map itemsMap) :: rest, result => decodeEntries rest (result.insert ns (decodeItems itemsMap .empty))
  | _ :: rest, result => decodeEntries rest result

/-- A value that is no map has no namespaces. -/
def decodeDeviceNamespaces : Value → DeviceNameSpaces
  | .map entries => decodeEntries entries .empty
  | _ => .empty

/-! ## Responses with a device signature -/

/-- A response with what the device has signed. -/
structure SignedResponse extends DeviceResponse where
  deviceSigned : Option DeviceSigned

namespace SignedResponse

def createWithDeviceAuth (issuerSigned : IssuerSigned) (requested : OrdMap String (List String))
    (sessionTranscript : SessionTranscript) (deviceSigner : CoseSigner)
    (deviceNamespaces : Option DeviceNameSpaces) : Except MdocError SignedResponse := do
  let response := DeviceResponse.create issuerSigned requested
  let auth : DeviceAuthentication := ⟨sessionTranscript, issuerSigned.docType, deviceNamespaces.getD .empty⟩
  let deviceSigned ← DeviceSigned.sign crates coset auth deviceSigner
  pure { response with deviceSigned := some deviceSigned }

def verifyDeviceAuth (response : SignedResponse) (sessionTranscript : SessionTranscript) (verifier : CoseVerifier) :
    Except MdocError Bool := do
  let deviceSigned ← response.deviceSigned.elim (throw (.deviceAuth "no device_signed present")) pure
  let nsValue ← (crates.decode deviceSigned.namespacesBytes).mapError fun e =>
    .deviceAuth s!"DeviceNameSpaces decode: {e}"
  let auth : DeviceAuthentication := ⟨sessionTranscript, response.docType, decodeDeviceNamespaces nsValue⟩
  deviceSigned.verify crates coset auth verifier

end SignedResponse

end AffinidiTdk.Mdoc
