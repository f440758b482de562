/-
The mediator's unpacking (`didcomm_compat.rs`): the addresses of a text are read from its headers
before it is decrypted, then it is opened with a secret of the mediator and the first key
agreement key of the sender's DID document. Resolver, secrets and key decoding are parameters.
-/
import AffinidiTdk.Didcomm.Adapter

namespace AffinidiTdk.Didcomm

open Fallible

/-! ## Keys of DID documents -/

/-- The curves of the key agreement. -/
inductive Curve
  | x25519 | p256 | k256 | p384 | p521
  deriving DecidableEq

/-- The key types of the secrets. -/
inductive KeyType
  | x25519 | p256 | secp256k1 | p384 | p521 | ed25519

/-- A private key of ours. -/
structure Secret where
  keyType : KeyType
  privateBytes : Bytes

/-- A verification method with its other members. -/
structure VerificationMethod where
  id : String
  propertySet : Json

/-- A method by its id, or in place. -/
inductive VerificationRelationship
  | reference (id : String)
  | verificationMethod (vm : VerificationMethod)

namespace VerificationRelationship

def getId : VerificationRelationship → String
  | reference id => id
  | verificationMethod vm => vm.id

/-- The embedded method, if it is the one with this id. -/
def embedded (kid : String) : VerificationRelationship → Option VerificationMethod
  | reference _ => none
  | verificationMethod vm => if vm.id = kid then some vm else none

end VerificationRelationship

/-- The parts of a DID document that unpacking reads. -/
structure Document where
  keyAgreement : List VerificationRelationship
  authentication : List VerificationRelationship
  verificationMethod : List VerificationMethod

namespace Document

/-- The ids of the key agreement keys, `find_key_agreement(None)`. -/
def findKeyAgreement (doc : Document) : List String := doc.keyAgreement.map VerificationRelationship.getId

def getVerificationMethod (doc : Document) (id : String) : Option VerificationMethod :=
  doc.verificationMethod.find? fun vm => vm.id = id

/-- A key by its id: embedded in one of the document's relationships, else among its methods. -/
def methodFor (doc : Document) (relationship : List VerificationRelationship) (kid : String) :
    Option VerificationMethod :=
  (relationship.findSome? fun entry => entry.embedded kid).or (doc.getVerificationMethod kid)

end Document

/-- What unpacking depends on: the decoders and primitives, the DID resolver and the secrets, and
how key material becomes a key. -/
structure Keyring (Priv Pub Kek : Type) where
  codec : Codec
  crypto : Crypto Priv Pub Kek
  resolve : String → Option Document
  getSecret : String → Option Secret
  privateFromRawBytes : Curve → Bytes → Option Priv
  publicFromRawBytes : Curve → Bytes → Option Pub
  decodeMultikeyWithCodec : String → Option (ℕ × Bytes)
  jwkToCodecBytes : Json → Option (ℕ × Bytes)
  verifyEd25519 : String → Bytes → Except DIDCommError VerifiedJws

namespace Keyring

variable {Priv Pub Kek : Type} (ring : Keyring Priv Pub Kek)

/-- The mediator's curve for a key type. -/
def curveOf : KeyType → Option Curve
  | .x25519 => some .x25519
  | .p256 => some .p256
  | .secp256k1 => some .k256
  | .p384 => some .p384
  | .p521 => some .p521
  | .ed25519 => none

/-- The mediator's curve for a multicodec. -/
def curveOfCodec (codec : ℕ) : Option Curve :=
  if codec = 0xec then some .x25519
  else if codec = 0x1200 then some .p256
  else if codec = 0xe7 then some .k256
  else if codec = 0x1201 then some .p384
  else if codec = 0x1202 then some .p521
  else none

/-- The public key of a verification method: its JWK, else its multibase form. -/
def publicKeyOf (vm : VerificationMethod) : Option Pub :=
  match vm.propertySet.get? "publicKeyJwk" with
  | some jwk => (ring.crypto.publicFromJwk jwk).toOption
  | none => do
    let multibase ← vm.propertySet.strField "publicKeyMultibase"
    let (codec, keyBytes) ← ring.decodeMultikeyWithCodec multibase
    let curve ← curveOfCodec codec
    ring.publicFromRawBytes curve keyBytes

def resolvePublicKey (doc : Document) (kid : String) : Option Pub := do
  let vm ← doc.methodFor doc.keyAgreement kid
  ring.publicKeyOf vm

/-- The first key agreement key of a DID. -/
def resolveDidKeyAgreement (did : String) : Option Pub := do
  let doc ← ring.resolve did
  let kid ← doc.findKeyAgreement.head?
  ring.resolvePublicKey doc kid

/-- The first recipient of an envelope with a secret of ours, on the curves a side supports. -/
def findSecret (curves : KeyType → Option Curve) (recipients : List Json) : Option (String × Priv) :=
  recipients.findSome? fun recipient => do
    let kid ← (recipient.index "header").strField "kid"
    let secret ← ring.getSecret kid
    let curve ← curves secret.keyType
    let priv ← ring.privateFromRawBytes curve secret.privateBytes
    return (kid, priv)

end Keyring

/-! ## Envelopes -/

/-- What unpacking tells of the envelopes it opened. -/
structure UnpackMetadata where
  encrypted : Bool := false
  authenticated : Bool := false
  nonRepudiation : Bool := false
  anonymousSender : Bool := false
  encryptedFromKid : Option String := none
  encryptedToKids : List String := []
  signFrom : Option String := none
  sha256Hash : String := ""
  deriving DecidableEq

/-- A received text with what was read off it before unpacking. -/
structure MetaEnvelope where
  raw : String
  sha256Hash : String
  toDid : Option String
  fromDid : Option String
  encrypted : Bool
  authenticated : Bool
  parsed : Json
  senderDid : Option String
  deriving DecidableEq

namespace MetaEnvelope

variable {Priv Pub Kek : Type} (ring : Keyring Priv Pub Kek)

/-- The DID of the first recipient that names a key. -/
def recipientDid (value : Json) : Option String := do
  let recipients ← (value.index "recipients").asArray
  let kid ← recipients.findSome? fun recipient => (recipient.index "header").strField "kid"
  return didOf kid

/-- The header of an authcrypted text, by its algorithm. -/
def authHeader (value : Json) : Option Json := do
  let protectedB64 ← value.strField "protected"
  let protectedBytes ← (ring.codec.base64 protectedB64).toOption
  let header ← (ring.codec.fromSlice protectedBytes).toOption
  let alg ← header.strField "alg"
  if Text.contains "1PU" alg then some header else none

/-- The sender of an authcrypted text: the DID of `skid`, else the one of `apu`. -/
def senderOf (header : Json) : Option String :=
  match header.strField "skid" with
  | some skid => some (didOf skid)
  | none => do
    let apu ← header.strField "apu"
    let apuBytes ← (ring.codec.base64 apu).toOption
    let apuStr ← fromUtf8 apuBytes
    if apuStr.toList.contains '#' then some (didOf apuStr) else none

def new (message : String) : Except String MetaEnvelope := do
  let sha256Hash := ring.codec.sha256 message
  let value ← (ring.codec.fromStr message).mapError fun e => s!"Cannot parse message as JSON: {e}"
  if isJwe value then
    let header := authHeader ring value
    let senderDid := header.bind (senderOf ring)
    return ⟨message, sha256Hash, recipientDid value, senderDid, true, header.isSome, value, senderDid⟩
  else if isJws value then
    return ⟨message, sha256Hash, none, none, false, false, value, none⟩
  else if (value.get? "type").isSome then
    let toDid := ((value.get? "to").bind Json.asArray).bind fun arr => arr.head?.bind Json.asStr
    return ⟨message, sha256Hash, toDid, value.strField "from", false, false, value, none⟩
  else
    .error "Cannot detect message format: expected JWE, JWS, or plaintext"

/-- A payload as a message. -/
def parse (what : String) (bytes : Bytes) : Except String Message :=
  (messageFromJson ring.codec bytes).mapError fun e => what ++ ": " ++ e.display

def unpackJwe (envelope : MetaEnvelope) : Except String (Message × UnpackMetadata) :=
  match (envelope.parsed.index "recipients").asArray with
  | none => .error "Invalid JWE: no recipients array"
  | some recipients =>
    match ring.findSecret Keyring.curveOf recipients with
    | none => .error "No local secret matches any JWE recipient"
    | some (kid, priv) => do
      let senderPublic := envelope.senderDid.bind ring.resolveDidKeyAgreement
      let decrypted ← (decrypt ring.codec ring.crypto envelope.raw kid priv senderPublic).mapError fun e =>
        "Couldn't decrypt message: " ++ e.display
      let msg ← parse ring "Cannot parse decrypted message" decrypted.plaintext
      let metadata : UnpackMetadata := {
        encrypted := true
        authenticated := decrypted.authenticated
        anonymousSender := !decrypted.authenticated
        encryptedFromKid := decrypted.senderKid
        encryptedToKids := [decrypted.recipientKid]
        sha256Hash := envelope.sha256Hash }
      return (msg, metadata)

/-- The payload of a signed text; the signature is not checked. -/
def unpackJws (envelope : MetaEnvelope) : Except String (Message × UnpackMetadata) := do
  let value ← (ring.codec.fromStr envelope.raw).mapError fun e => s!"Cannot parse JWS: {e}"
  match (value.index "payload").asStr with
  | none => .error "Invalid JWS: missing payload"
  | some payloadB64 =>
    let payloadBytes ← (ring.codec.base64 payloadB64).mapError fun e => s!"Invalid JWS payload base64: {e}"
    let msg ← parse ring "Cannot parse JWS payload" payloadBytes
    return (msg, { nonRepudiation := true, sha256Hash := envelope.sha256Hash })

def unpack (envelope : MetaEnvelope) : Except String (Message × UnpackMetadata) :=
  if isJwe envelope.parsed then unpackJwe ring envelope
  else if isJws envelope.parsed then unpackJws ring envelope
  else if (envelope.parsed.get? "type").isSome then do
    let msg ← parse ring "Cannot parse plaintext message" (utf8 envelope.raw)
    return (msg, { sha256Hash := envelope.sha256Hash })
  else .error "Cannot detect message format"

end MetaEnvelope

/-! ## What the mediator reports as authenticated -/

namespace MetaEnvelope

variable {Priv Pub Kek : Type} {ring : Keyring Priv Pub Kek} {message : String} {envelope : MetaEnvelope}
  {msg : Message} {metadata : UnpackMetadata}

theorem new_eq_ok (h : new ring message = .ok envelope) :
    envelope.raw = message ∧ ring.codec.fromStr message = .ok envelope.parsed ∧
    envelope.senderDid =
      if isJwe envelope.parsed then (authHeader ring envelope.parsed).bind (senderOf ring) else none := by
  unfold new at h
  simp only [bind_eq_ok_iff, mapError_eq_ok_iff] at h
  obtain ⟨value, hvalue, h⟩ := h
  split at h
  · rename_i hjwe
    cases h
    simp [hvalue, hjwe]
  · rename_i hjwe
    split at h
    · cases h
      simp [hvalue, hjwe]
    · split at h
      · cases h
        simp [hvalue, hjwe]
      · cases h

theorem unpackJwe_eq_ok (h : unpackJwe ring envelope = .ok (msg, metadata)) : ∃ recipients kid priv decrypted,
    (envelope.parsed.index "recipients").asArray = some recipients ∧ ring.findSecret Keyring.curveOf recipients =
    some (kid, priv) ∧ decrypt ring.codec ring.crypto envelope.raw kid priv
    (envelope.senderDid.bind ring.resolveDidKeyAgreement) = .ok decrypted ∧ metadata.authenticated =
    decrypted.authenticated ∧ metadata.encryptedFromKid = decrypted.senderKid ∧ ring.codec.message
    decrypted.plaintext = .ok msg := by
  unfold unpackJwe at h
  split at h
  · cases h
  rename_i recipients hrecipients
  split at h
  · cases h
  rename_i kid priv hsecret
  simp only [bind_eq_ok_iff, mapError_eq_ok_iff, invalid_eq_ok_iff, parse, messageFromJson, pure_eq_ok_iff,
    Prod.mk.injEq] at h
  obtain ⟨decrypted, hdecrypted, msg, hmsg, rfl, rfl⟩ := h
  exact ⟨recipients, kid, priv, decrypted, hrecipients, hsecret, hdecrypted, rfl, rfl, hmsg⟩

theorem unpack_authenticated (h : unpack ring envelope = .ok (msg, metadata))
    (ha : metadata.authenticated = true) :
    isJwe envelope.parsed = true ∧ unpackJwe ring envelope = .ok (msg, metadata) := by
  unfold unpack at h
  split at h
  · rename_i hjwe
    exact ⟨hjwe, h⟩
  · split at h
    · simp only [unpackJws, bind_eq_ok_iff, mapError_eq_ok_iff] at h
      obtain ⟨value, -, h⟩ := h
      split at h
      · cases h
      · simp only [bind_eq_ok_iff, mapError_eq_ok_iff, pure_eq_ok_iff, Prod.mk.injEq] at h
        obtain ⟨_, _, _, _, -, rfl⟩ := h
        cases ha
    · split at h
      · simp only [bind_eq_ok_iff, pure_eq_ok_iff, Prod.mk.injEq] at h
        obtain ⟨_, _, -, rfl⟩ := h
        cases ha
      · cases h

theorem authHeader_eq_some {value header : Json} (hvalue : ring.codec.fromStr message = .ok value)
    (h : authHeader ring value = some header) : headerValue ring.codec message = some header := by
  unfold authHeader at h
  simp only [bind, Option.bind_eq_some_iff] at h
  obtain ⟨b64, hb64, bytes, hbytes, header', hheader, alg, -, h⟩ := h
  split at h
  · cases h
    have htop : (ring.codec.fromStr message).toOption = some value := by rw [hvalue]; rfl
    simp [headerValue, htop, hb64, hbytes, hheader]
  · cases h

/-- What an authenticated text says about its envelope: the key that opened it is the first one of
the DID that `skid`, or else `apu`, names, while the key id reported is the one of `apu`. -/
theorem authenticated_spec (hnew : new ring message = .ok envelope)
    (h : unpack ring envelope = .ok (msg, metadata)) (ha : metadata.authenticated = true) :
    ∃ header did pub recipients kid priv, headerValue ring.codec message = some header ∧ envelope.senderDid =
    some did ∧ senderOf ring header = some did ∧ ring.resolveDidKeyAgreement did = some pub ∧
    ring.findSecret Keyring.curveOf recipients = some (kid, priv) ∧ OpensWith ring.codec ring.crypto message kid
    priv pub ∧ metadata.encryptedFromKid = apuKid ring.codec header := by
  obtain ⟨hraw, hparsed, hsender⟩ := new_eq_ok hnew
  obtain ⟨hjwe, h⟩ := unpack_authenticated h ha
  obtain ⟨recipients, kid, priv, d, -, hsecret, hd, hauth, hfrom, -⟩ := unpackJwe_eq_ok h
  rw [hraw] at hd
  obtain ⟨header, pub, hheader, -, hpub, hkid, hopens⟩ := decrypt_authenticated hd (hauth ▸ ha)
  obtain ⟨did, hsenderDid, hpub⟩ := Option.bind_eq_some_iff.1 hpub
  have hdid := hsenderDid
  rw [hsender, if_pos hjwe, Option.bind_eq_some_iff] at hdid
  obtain ⟨header', hheader', hdid⟩ := hdid
  have : header' = header := by
    have := authHeader_eq_some hparsed hheader'
    rw [hheader] at this
    exact (Option.some.inj this).symm
  subst this
  exact ⟨header', did, pub, recipients, kid, priv, hheader, hsenderDid, hdid, hpub, hsecret, hopens,
    hfrom.trans hkid⟩

end MetaEnvelope

end AffinidiTdk.Didcomm
