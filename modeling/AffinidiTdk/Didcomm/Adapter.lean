/-
Unpacking in the messaging-didcomm crate (`message/unpack.rs`, `DIDCommAgent::unpack`, `store.rs`
and `DIDCommAdapter::unpack`): the sender of an envelope is looked up before the decryption by the
header's `skid`, and reported after it from what the decryption returned.
-/
import AffinidiTdk.Didcomm.Envelope

namespace AffinidiTdk.Didcomm

open Fallible

/-! ## Formats -/

/-- A text is taken for an encrypted message by its two fields. -/
def isJwe (value : Json) : Bool := (value.get? "ciphertext").isSome && (value.get? "recipients").isSome

def isJws (value : Json) : Bool := (value.get? "payload").isSome && (value.get? "signatures").isSome

/-- The payload of a signature that was verified. -/
structure VerifiedJws where
  payload : Bytes
  signerKid : Option String

/-- What unpacking found, by the kind of envelope. -/
inductive UnpackResult
  | encrypted (message : Message) (authenticated : Bool) (senderKid : Option String) (recipientKid : String)
      (legacyKekUsed nonRepudiation : Bool) (signerKid : Option String)
  | signed (message : Message) (signerKid : Option String)
  | plaintext (message : Message)
  deriving DecidableEq

section

variable {Priv Pub Kek : Type} (codec : Codec) (crypto : Crypto Priv Pub Kek)
  (verifyEd25519 : String → Bytes → Except DIDCommError VerifiedJws)

def messageFromJson (bytes : Bytes) : Except DIDCommError Message := invalid "invalid message" (codec.message bytes)

/-- The decrypted payload is itself a signed message. -/
def innerIsJws (plaintext : Bytes) : Bool :=
  match codec.fromSlice plaintext with
  | .ok value => isJws value
  | .error _ => false

def require {α : Type} (o : Option α) (msg : String) : Except DIDCommError α :=
  match o with
  | some a => .ok a
  | none => .error (.invalidMessage msg)

/-- The message of a decrypted payload: as it is, or out of the signed message that it is. -/
def openPayload (decrypted : DecryptedJwe) (signerPublic : Option Bytes) : Except DIDCommError UnpackResult := do
  if innerIsJws codec decrypted.plaintext then
    let pk ← require signerPublic
      "decrypted payload is a signed JWS (sign-then-encrypt); signer_public is required to verify it"
    let inner ← require (fromUtf8 decrypted.plaintext) "inner JWS is not valid UTF-8"
    let verified ← verifyEd25519 inner pk
    let message ← messageFromJson codec verified.payload
    return .encrypted message decrypted.authenticated decrypted.senderKid decrypted.recipientKid
      decrypted.legacyKekUsed true verified.signerKid
  else
    let message ← messageFromJson codec decrypted.plaintext
    return .encrypted message decrypted.authenticated decrypted.senderKid decrypted.recipientKid
      decrypted.legacyKekUsed false none

/-- `message::unpack::unpack`. -/
def unpack (input : String) (recipientKid : Option String) (recipientPrivate : Option Priv)
    (senderPublic : Option Pub) (signerPublic : Option Bytes) : Except DIDCommError UnpackResult := do
  let value ← invalid "invalid JSON" (codec.fromStr input)
  if isJwe value then
    let kid ← require recipientKid "recipient_kid required for JWE"
    let priv ← require recipientPrivate "recipient_private required for JWE"
    let decrypted ← decrypt codec crypto input kid priv senderPublic
    openPayload codec verifyEd25519 decrypted signerPublic
  else if isJws value then
    let pk ← require signerPublic "signer_public required for JWS"
    let verified ← verifyEd25519 input pk
    let message ← messageFromJson codec verified.payload
    return .signed message verified.signerKid
  else if (value.get? "type").isSome then
    let message ← messageFromJson codec (utf8 input)
    return .plaintext message
  else
    .error (.invalidMessage "cannot detect message format: expected JWE, JWS, or plaintext")

end

/-! ## The agent -/

/-- A DID of ours with its private key. -/
structure PrivateIdentity (Priv : Type) where
  did : String
  keyAgreementKid : String
  keyAgreementPrivate : Priv

/-- A resolved DID with its public keys. -/
structure ResolvedIdentity (Pub : Type) where
  did : String
  keyAgreementPublic : Pub
  verifyingKey : Option Bytes

/-- The identities of an agent, each list in the order its map iterates. -/
structure DIDCommStore (Priv Pub : Type) where
  ownIdentities : List (PrivateIdentity Priv)
  resolved : List (ResolvedIdentity Pub)

namespace DIDCommStore

variable {Priv Pub : Type} (store : DIDCommStore Priv Pub)

def getResolved (did : String) : Except DIDCommError (ResolvedIdentity Pub) :=
  match store.resolved.find? fun r => r.did = did with
  | some identity => .ok identity
  | none => .error (.identityNotFound did)

/-- The local identity whose key agreement key is `kid`. -/
def localFor (kid : String) : Option (PrivateIdentity Priv) :=
  store.ownIdentities.find? fun identity => identity.keyAgreementKid = kid

/-- The first recipient of an envelope that is a local identity. -/
def findLocal (recipients : List Json) : Option (String × Priv) :=
  recipients.findSome? fun recipient => do
    let kid ← (recipient.index "header").strField "kid"
    let identity ← store.localFor kid
    return (kid, identity.keyAgreementPrivate)

/-- The key of the sender a caller names. -/
def senderPublic : Option String → Except DIDCommError (Option Pub)
  | none => .ok none
  | some did => do
    let identity ← store.getResolved did
    return some identity.keyAgreementPublic

end DIDCommStore

/-- The agent: codec, cryptography and the identities it knows. -/
structure DIDCommAgent (Priv Pub Kek : Type) where
  codec : Codec
  crypto : Crypto Priv Pub Kek
  verifyEd25519 : String → Bytes → Except DIDCommError VerifiedJws
  store : DIDCommStore Priv Pub

namespace DIDCommAgent

variable {Priv Pub Kek : Type} (agent : DIDCommAgent Priv Pub Kek)

def unpack (input : String) (senderDid : Option String) : Except DIDCommError UnpackResult := do
  let value ← invalid "invalid JSON" (agent.codec.fromStr input)
  if isJwe value then
    let senderPublic ← agent.store.senderPublic senderDid
    let recipients ← require (value.index "recipients").asArray "no recipients array"
    match agent.store.findLocal recipients with
    | some (kid, priv) =>
      Didcomm.unpack agent.codec agent.crypto agent.verifyEd25519 input (some kid) (some priv) senderPublic none
    | none => .error (.identityNotFound "no local identity matches any JWE recipient")
  else if isJws value then
    let signerDid ← require senderDid "sender_did required for JWS verification"
    let resolved ← agent.store.getResolved signerDid
    match resolved.verifyingKey with
    | some vk => Didcomm.unpack agent.codec agent.crypto agent.verifyEd25519 input none none none (some vk)
    | none => .error (.noKeyAgreement "no verifying key for sender")
  else
    Didcomm.unpack agent.codec agent.crypto agent.verifyEd25519 input none none none none

end DIDCommAgent

/-! ## The adapter -/

/-- What the adapter gives its caller. -/
structure ReceivedMessage where
  id : String
  sender : Option String
  recipient : String
  payload : Bytes
  verified : Bool
  encrypted : Bool

namespace DIDCommAgent

variable {Priv Pub Kek : Type} (agent : DIDCommAgent Priv Pub Kek)

def extractPayload (body : Json) : Bytes :=
  match body with
  | .str s => utf8 s
  | other => match agent.codec.toStr other with
    | .ok text => utf8 text
    | .error _ => []

def detectSender (input : String) : Option String := do
  let header ← headerValue agent.codec input
  let skid ← header.strField "skid"
  return didOf skid

/-- The plaintext `from` and the sender of the envelope, where both are there and differ. -/
def senderMismatch (message : Message) (authSender : Option String) : Option (String × String) :=
  match message.sender, authSender with
  | some sender, some auth => if sender = auth then none else some (sender, auth)
  | _, _ => none

def firstTo (message : Message) : Option String := message.toDids.bind List.head?

/-- A result as the messaging traits see it; an error is the text of the unpack error. -/
def receive : UnpackResult → Except String ReceivedMessage
  | .encrypted message authenticated senderKid recipientKid _ _ _ =>
    let authSender := senderKid.map didOf
    match authenticated, senderMismatch message authSender with
    | true, some (sender, auth) =>
      .error s!"plaintext `from` ({sender}) does not match authenticated sender ({auth})"
    | _, _ =>
      .ok ⟨message.id, authSender.or message.sender, (firstTo message).getD (didOf recipientKid),
        agent.extractPayload message.body, authenticated, true⟩
  | .signed message signerKid =>
    let authSender := signerKid.map didOf
    match senderMismatch message authSender with
    | some (sender, auth) => .error s!"plaintext `from` ({sender}) does not match JWS signer ({auth})"
    | none =>
      .ok ⟨message.id, authSender.or message.sender, (firstTo message).getD "",
        agent.extractPayload message.body, true, false⟩
  | .plaintext message =>
    .ok ⟨message.id, message.sender, (firstTo message).getD "", agent.extractPayload message.body, false, false⟩

def adapterUnpack (packed : Bytes) : Except String ReceivedMessage := do
  match fromUtf8 packed with
  | none => .error "invalid UTF-8"
  | some input =>
    let result ← (agent.unpack input (agent.detectSender input)).mapError DIDCommError.display
    agent.receive result

end DIDCommAgent

/-! ## What the adapter reports as verified -/

section

variable {Priv Pub Kek : Type}

variable {verify : String → Bytes → Except DIDCommError VerifiedJws} {signer : Option Bytes} {r : UnpackResult}

/-- An encrypted result comes from one decryption: its flag and its sender key id are the
decryption's, its message is in the decrypted payload. -/
theorem openPayload_eq_ok {codec : Codec} {d : DecryptedJwe} (h : openPayload codec verify d signer = .ok r) :
    ∃ message nonRepudiation signerKid, r = .encrypted message d.authenticated d.senderKid d.recipientKid
    d.legacyKekUsed nonRepudiation signerKid := by
  unfold openPayload at h
  split at h
  · simp only [bind_eq_ok_iff, pure_eq_ok_iff] at h
    obtain ⟨_, _, _, _, verified, _, message, _, rfl⟩ := h
    exact ⟨message, true, verified.signerKid, rfl⟩
  · simp only [bind_eq_ok_iff, pure_eq_ok_iff] at h
    obtain ⟨message, _, rfl⟩ := h
    exact ⟨message, false, none, rfl⟩

theorem unpack_jwe_eq_ok {codec : Codec} {crypto : Crypto Priv Pub Kek} {input kid : String} {priv : Priv}
    {senderPublic : Option Pub} {value : Json} (hvalue : codec.fromStr input = .ok value)
    (hjwe : isJwe value = true) (h : unpack codec crypto verify input (some kid) (some priv) senderPublic signer =
    .ok r) : ∃ d message nonRepudiation signerKid, decrypt codec crypto input kid priv senderPublic = .ok d ∧ r =
    .encrypted message d.authenticated d.senderKid d.recipientKid d.legacyKekUsed nonRepudiation signerKid := by
  unfold unpack at h
  simp only [hvalue, invalid, mapError_ok, bind_eq_ok_iff, hjwe, if_true, require, Except.ok.injEq,
    exists_eq_left'] at h
  obtain ⟨d, hd, h⟩ := h
  obtain ⟨message, nonRepudiation, signerKid, rfl⟩ := openPayload_eq_ok h
  exact ⟨d, message, nonRepudiation, signerKid, hd, rfl⟩

theorem DIDCommStore.senderPublic_eq_ok {store : DIDCommStore Priv Pub} {sender : Option String} {pub : Pub}
    (h : store.senderPublic sender = .ok (some pub)) :
    ∃ did identity, sender = some did ∧ store.getResolved did = .ok identity ∧ identity.keyAgreementPublic =
      pub := by
  cases sender with
  | none => cases h
  | some did =>
    simp only [DIDCommStore.senderPublic, bind_eq_ok_iff, pure_eq_ok_iff, Option.some.injEq] at h
    obtain ⟨identity, hidentity, hpub⟩ := h
    exact ⟨did, identity, rfl, hidentity, hpub⟩

namespace DIDCommAgent

variable {agent : DIDCommAgent Priv Pub Kek}

/-- The message sealed in an envelope that opens with the sender's key. -/
def sealedMessage (agent : DIDCommAgent Priv Pub Kek) (input kid : String) (priv : Priv) (pub : Pub) :
    Option Message :=
  match Didcomm.unpack agent.codec agent.crypto agent.verifyEd25519 input (some kid) (some priv) (some pub) none with
  | .ok (.encrypted message _ _ _ _ _ _) => some message
  | _ => none

variable {r : ReceivedMessage}

theorem receive_encrypted_eq_ok {message : Message} {authenticated : Bool} {senderKid signerKid : Option String}
    {kid : String} {legacy nonRepudiation : Bool}
    (h : agent.receive (.encrypted message authenticated senderKid kid legacy nonRepudiation signerKid) = .ok r) :
    r.verified = authenticated ∧ r.sender = (senderKid.map didOf).or message.sender := by
  simp only [receive] at h
  split at h
  · cases h
  · cases h
    exact ⟨rfl, rfl⟩

theorem adapterUnpack_utf8 {input : String} {result : UnpackResult}
    (h : agent.unpack input (agent.detectSender input) = .ok result) :
    agent.adapterUnpack (utf8 input) = agent.receive result := by
  rw [adapterUnpack, fromUtf8_utf8]
  simp only [h, mapError_ok]
  rfl

/-- What a verified message says about its envelope: the key that opened it is the one stored for
the DID of `skid`, while the sender reported is the one of `apu`, or the plaintext `from`. -/
theorem adapterUnpack_verified {packed : Bytes} {input : String} {value : Json}
    (hinput : fromUtf8 packed = some input) (hvalue : agent.codec.fromStr input = .ok value)
    (hjwe : isJwe value = true) (h : agent.adapterUnpack packed = .ok r) (hv : r.verified = true) :
    ∃ header did identity kid priv message, headerValue agent.codec input = some header ∧ agent.detectSender
    input = some did ∧ agent.store.getResolved did = .ok identity ∧
    (∃ recipients, agent.store.findLocal recipients = some (kid, priv)) ∧ OpensWith agent.codec agent.crypto input
    kid priv identity.keyAgreementPublic ∧ agent.sealedMessage input kid priv identity.keyAgreementPublic =
    some message ∧ r.sender = ((apuKid agent.codec header).map didOf).or message.sender := by
  unfold adapterUnpack at h
  simp only [hinput, bind_eq_ok_iff, mapError_eq_ok_iff] at h
  obtain ⟨result, hresult, h⟩ := h
  unfold DIDCommAgent.unpack at hresult
  simp only [hvalue, invalid, mapError_ok, bind_eq_ok_iff, hjwe, if_true, Except.ok.injEq,
    exists_eq_left'] at hresult
  obtain ⟨senderPublic, hsender, recipients, -, hresult⟩ := hresult
  split at hresult
  · rename_i kid priv hfind
    obtain ⟨d, message, nonRepudiation, signerKid, hd, rfl⟩ := unpack_jwe_eq_ok hvalue hjwe hresult
    obtain ⟨hverified, hreported⟩ := receive_encrypted_eq_ok h
    have ha : d.authenticated = true := hverified ▸ hv
    obtain ⟨header, pub, hheader, -, rfl, hkid, hopens⟩ := decrypt_authenticated hd ha
    obtain ⟨did, identity, hdid, hidentity, rfl⟩ := DIDCommStore.senderPublic_eq_ok hsender
    refine ⟨header, did, identity, kid, priv, message, hheader, hdid, hidentity, ⟨recipients, hfind⟩, hopens, ?_, ?_⟩
    · simp [sealedMessage, hresult]
    · rw [hreported, hkid]
  · cases hresult

end DIDCommAgent

end

end AffinidiTdk.Didcomm
