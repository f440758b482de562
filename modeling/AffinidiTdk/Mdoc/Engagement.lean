/-
Device engagement and the session transcript (`affinidi-mdoc`, `device_engagement.rs`,
`session_transcript.rs`, `session.rs`). The engagement is a positional array; it is parsed with some leniency
and encoded again for the transcript, from which the session keys are derived.
-/
import AffinidiTdk.Mdoc.Credential

namespace AffinidiTdk.Mdoc

open Cbor (Value)

/-! ## Device engagement -/

/-- The cipher suite and the ephemeral key of the device. -/
structure Security where
  cipherSuite : ℕ
  eDeviceKeyBytes : Tag24 Value

/-- A way to reach the device. -/
structure DeviceRetrievalMethod where
  transportType : ℕ
  version : ℕ
  retrievalOptions : Option Value

/-- What a device shows to start a session. -/
structure DeviceEngagement where
  version : String
  security : Security
  deviceRetrievalMethods : Option (List DeviceRetrievalMethod)
  serverRetrievalMethods : Option Value
  protocolInfo : Option Value

/-- The conversion of an integer to 32 bits, which wraps around. -/
def asU32 (n : ℤ) : ℕ := (n % 2 ^ 32).toNat

def DeviceRetrievalMethod.toCborValue (m : DeviceRetrievalMethod) : Value :=
  .array ([.integer m.transportType, .integer m.version] ++ m.retrievalOptions.toList)

namespace DeviceEngagement

/-- The engagement as an array: an absent field is a null where a later one is present. -/
def toCborValue (engagement : DeviceEngagement) : Value :=
  let security : Value :=
    .array [.integer engagement.security.cipherSuite,
      .tag 24 (.bytes engagement.security.eDeviceKeyBytes.innerBytes)]
  let methods := match engagement.deviceRetrievalMethods with
    | some methods => [.array (methods.map DeviceRetrievalMethod.toCborValue)]
    | none =>
      if engagement.serverRetrievalMethods.isSome || engagement.protocolInfo.isSome then [.null] else []
  let server := match engagement.serverRetrievalMethods with
    | some server => [server]
    | none => if engagement.protocolInfo.isSome then [.null] else []
  .array ([.text engagement.version, security] ++ methods ++ server ++ engagement.protocolInfo.toList)

def toCborBytes (crates : Crates) (engagement : DeviceEngagement) : Except MdocError Bytes :=
  (crates.encode engagement.toCborValue).mapError fun e => .cbor s!"DeviceEngagement encoding: {e}"

/-- The key of the device, in a tagged byte string or in one without the tag. -/
def parseKey (crates : Crates) : Value → Except MdocError (Tag24 Value)
  | .tag 24 (.bytes b) | .bytes b => do
    let inner ← (crates.decode b).mapError fun e => .cbor s!"eDeviceKeyBytes decode: {e}"
    pure ⟨inner, b⟩
  | .tag 24 _ => throw (.cbor "eDeviceKeyBytes Tag24 inner must be bytes")
  | _ => throw (.cbor "eDeviceKeyBytes must be Tag24 or bytes")

def parseCipherSuite : Value → Except MdocError ℕ
  | .integer n => pure (asU32 n)
  | _ => throw (.cbor "cipher suite must be int")

def parseSecurity (crates : Crates) : Value → Except MdocError Security
  | .array (suite :: key :: _) => do
    let cipherSuite ← parseCipherSuite suite
    let eDeviceKeyBytes ← parseKey crates key
    pure ⟨cipherSuite, eDeviceKeyBytes⟩
  | _ => throw (.cbor "Security must be a 2-element array")

/-- A retrieval method; one that is not understood is passed over. -/
def parseMethod : Value → Option DeviceRetrievalMethod
  | .array (.integer transportType :: .integer version :: options) =>
    some ⟨asU32 transportType, asU32 version, options.head?⟩
  | _ => none

def parseMethods : Option Value → Option (List DeviceRetrievalMethod)
  | some (.array methods) => some (methods.filterMap parseMethod)
  | _ => none

/-- A field that may be absent or null. -/
def present : Option Value → Option Value
  | some .null | none => none
  | some v => some v

def parseVersion : Value → Except MdocError String
  | .text s => pure s
  | _ => throw (.cbor "DeviceEngagement version must be tstr")

def fromCborValue (crates : Crates) : Value → Except MdocError DeviceEngagement
  | .array (version :: security :: rest) => do
    let version ← parseVersion version
    let security ← parseSecurity crates security
    pure ⟨version, security, parseMethods rest[0]?, present rest[1]?, present rest[2]?⟩
  | .array _ => throw (.cbor "DeviceEngagement requires at least 2 elements")
  | _ => throw (.cbor "DeviceEngagement must be a CBOR array")

end DeviceEngagement

/-! ## Session transcript -/

/-- How the session was set up. -/
inductive Handover
  | qr
  | nfc (handoverSelect : Bytes) (handoverRequest : Option Bytes)
  | oid4vp (clientId responseUri nonce mdocGeneratedNonce : String)

/-- What both sides sign over. -/
structure SessionTranscript where
  deviceEngagementBytes : Option Bytes
  eReaderKeyBytes : Option Bytes
  handover : Handover

def Handover.toCborValue : Handover → Value
  | qr => .null
  | nfc handoverSelect handoverRequest => .array (.bytes handoverSelect :: (handoverRequest.map Value.bytes).toList)
  | oid4vp clientId responseUri nonce mdocGeneratedNonce =>
    .array [.text clientId, .text responseUri, .text nonce, .text mdocGeneratedNonce]

namespace SessionTranscript

/-- The transcript over an engagement's bytes and the key of the reader. -/
def ofBytes (crates : Crates) (deBytes : Except MdocError Bytes) (eReaderKey : Value) (handover : Handover) :
    Except MdocError SessionTranscript := do
  let deBytes ← deBytes
  let eReaderTag ← Tag24.new crates id eReaderKey
  pure ⟨some deBytes, some eReaderTag.innerBytes, handover⟩

def newQr (crates : Crates) (engagement : DeviceEngagement) (eReaderKey : Value) :
    Except MdocError SessionTranscript :=
  ofBytes crates (engagement.toCborBytes crates) eReaderKey .qr

def newNfc (crates : Crates) (engagement : DeviceEngagement) (eReaderKey : Value) (handoverSelect : Bytes)
    (handoverRequest : Option Bytes) : Except MdocError SessionTranscript :=
  ofBytes crates (engagement.toCborBytes crates) eReaderKey (.nfc handoverSelect handoverRequest)

def newOid4vp (clientId responseUri nonce mdocGeneratedNonce : String) : SessionTranscript :=
  ⟨none, none, .oid4vp clientId responseUri nonce mdocGeneratedNonce⟩

/-- Tagged bytes, or null. -/
def taggedOrNull : Option Bytes → Value
  | some bytes => .tag 24 (.bytes bytes)
  | none => .null

def toCborValue (transcript : SessionTranscript) : Value :=
  .array [taggedOrNull transcript.deviceEngagementBytes, taggedOrNull transcript.eReaderKeyBytes,
    transcript.handover.toCborValue]

end SessionTranscript

end AffinidiTdk.Mdoc
