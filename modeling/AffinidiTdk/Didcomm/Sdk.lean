/-
Unpacking in the messaging SDK (`messages/unpack.rs`): encrypted, signed and plain texts, with the
forwards of a text opened in turn up to a depth. The sender's key is the one `skid` names in the
sender's DID document.
-/
import AffinidiTdk.Didcomm.MetaEnvelope

namespace AffinidiTdk.Didcomm

open Fallible

/-- The errors of the SDK that unpacking gives. -/
inductive ATMError
  | didcommError (what msg : String)
  | msgReceiveError (msg : String)
  deriving DecidableEq

/-- The settings that unpacking reads, and the clock. -/
structure ATMConfig where
  unpackForwards : Bool
  now : ℕ

namespace Sdk

def maxForwardDepth : ℕ := 10

def forwardType : String := "https://didcomm.org/routing/2.0/forward"

/-! ## Keys -/

/-- The SDK's curve for a key type. -/
def curveOf : KeyType → Option Curve
  | .x25519 => some .x25519
  | .p256 => some .p256
  | .secp256k1 => some .k256
  | _ => none

/-- The SDK's curve for a multicodec. -/
def curveOfCodec (codec : ℕ) : Option Curve :=
  if codec = 0xec then some .x25519
  else if codec = 0x1200 then some .p256
  else if codec = 0xe7 then some .k256
  else none

variable {Priv Pub Kek : Type} (ring : Keyring Priv Pub Kek)

/-- `VerificationMethod::decode_public_key`: the multibase form, else the JWK. -/
def decodePublicKey (vm : VerificationMethod) : Option (ℕ × Bytes) :=
  match vm.propertySet.strField "publicKeyMultibase" with
  | some multibase => ring.decodeMultikeyWithCodec multibase
  | none => do
    let jwk ← vm.propertySet.get? "publicKeyJwk"
    ring.jwkToCodecBytes jwk

/-- The id of the key that `kid` names; a bare DID stands for the first of its keys. -/
def lookupKid (keys : List VerificationRelationship) (kid : String) : Option String :=
  if kid.toList.contains '#' then some kid else (keys.map VerificationRelationship.getId).head?

/-- The public key of the sender whose key id is `skid`. -/
def resolveSkid (skid : String) : Option Pub := do
  let senderDoc ← ring.resolve (didOf skid)
  let kid ← lookupKid senderDoc.keyAgreement skid
  let vm ← senderDoc.methodFor senderDoc.keyAgreement kid
  let (codec, keyBytes) ← decodePublicKey ring vm
  let curve ← curveOfCodec codec
  ring.publicFromRawBytes curve keyBytes

def tryResolveSenderPublic (jweStr : String) : Option Pub := do
  let header ← headerValue ring.codec jweStr
  let alg ← header.strField "alg"
  if Text.contains "1PU" alg then
    let skid ← header.strField "skid"
    resolveSkid ring skid
  else none

/-! ## Signed texts -/

/-- The signer of the first signature: its protected header, else the unprotected one. -/
def jwsSignerKid (jws : Json) : Option String := do
  let signatures ← (jws.get? "signatures").bind Json.asArray
  let sig ← signatures.head?
  let protectedKid := do
    let protectedB64 ← sig.strField "protected"
    let bytes ← (ring.codec.base64 protectedB64).toOption
    let header ← (ring.codec.fromSlice bytes).toOption
    header.strField "kid"
  protectedKid.or ((sig.get? "header").bind fun header => header.strField "kid")

/-- The signer's Ed25519 key, among the authentication keys of its DID. -/
def tryResolveSignerEd25519 (kid : String) : Option Bytes := do
  let doc ← ring.resolve (didOf kid)
  let lookup ← lookupKid doc.authentication kid
  let vm ← doc.methodFor doc.authentication lookup
  let (codec, bytes) ← decodePublicKey ring vm
  if codec = 0xed ∧ bytes.length = 32 then some bytes else none

def verifyInnerJws (jwsStr : String) (jws : Json) :
    Except ATMError (Message × String) :=
  match jwsSignerKid ring jws with
  | none => .error (.didcommError "Invalid JWS" "no signer kid in JWS headers")
  | some signerKid =>
    match tryResolveSignerEd25519 ring signerKid with
    | none => .error (.didcommError "Couldn't verify JWS"
        s!"could not resolve an Ed25519 verification key for '{signerKid}'")
    | some signerPk => do
      let verified ← (ring.verifyEd25519 jwsStr signerPk).mapError fun e =>
        .didcommError "JWS signature verification failed" e.display
      let msg ← (messageFromJson ring.codec verified.payload).mapError fun e =>
        .didcommError "Cannot parse verified JWS payload" e.display
      return (msg, verified.signerKid.getD signerKid)

/-! ## Encrypted texts -/

/-- The message in a decrypted payload and, where the payload is signed, its signer. -/
def innerMessage (plaintext : Bytes) :
    Except ATMError (Message × Option String) :=
  match ring.codec.fromSlice plaintext with
  | .ok inner =>
    if isJws inner then
      match fromUtf8 plaintext with
      | none => .error (.didcommError "Invalid inner JWS" "invalid utf-8 sequence")
      | some innerStr => do
        let (msg, signFrom) ← verifyInnerJws ring innerStr inner
        return (msg, some signFrom)
    else plain
  | .error _ => plain
where
  plain : Except ATMError (Message × Option String) := do
    let msg ← (messageFromJson ring.codec plaintext).mapError fun e =>
      .didcommError "Cannot parse decrypted message" e.display
    return (msg, none)

def unpackJwe (msgString : String) (value : Json) (sha256Hash : String) :
    Except ATMError (Message × UnpackMetadata) :=
  match (value.index "recipients").asArray with
  | none => .error (.didcommError "Invalid JWE" "no recipients array")
  | some recipients =>
    match ring.findSecret curveOf recipients with
    | none => .error (.didcommError "Couldn't unpack incoming message" "no local secret matches any JWE recipient")
    | some (kid, priv) => do
      let senderPublic := tryResolveSenderPublic ring msgString
      let decrypted ← (decrypt ring.codec ring.crypto msgString kid priv senderPublic).mapError fun e =>
        .didcommError "Couldn't unpack incoming message" e.display
      let (msg, signFrom) ← innerMessage ring decrypted.plaintext
      let metadata : UnpackMetadata := {
        encrypted := true
        authenticated := decrypted.authenticated
        anonymousSender := !decrypted.authenticated
        encryptedFromKid := decrypted.senderKid
        encryptedToKids := [decrypted.recipientKid]
        nonRepudiation := signFrom.isSome
        signFrom
        sha256Hash }
      return (msg, metadata)

/-! ## The loop -/

/-- One turn of the loop: a text and its metadata. -/
def unpackOne (msgString : String) :
    Except ATMError (Message × UnpackMetadata) := do
  let sha256Hash := ring.codec.sha256 msgString
  let value ← (ring.codec.fromStr msgString).mapError (.didcommError "Cannot parse message as JSON")
  if isJwe value then
    unpackJwe ring msgString value sha256Hash
  else if isJws value then
    let (msg, signFrom) ← verifyInnerJws ring msgString value
    return (msg, { nonRepudiation := true, signFrom := some signFrom, sha256Hash })
  else if (value.get? "type").isSome then
    let msg ← (messageFromJson ring.codec (utf8 msgString)).mapError fun e =>
      .didcommError "Cannot parse plaintext message" e.display
    return (msg, { sha256Hash })
  else
    .error (.didcommError "Cannot detect message format" "expected JWE, JWS, or plaintext")

/-- The text in the first attachment of a forward that has not expired. -/
def extractForwardPayload (message : Message) (now : ℕ) : Except ATMError String :=
  if message.expiresTime.any fun expires => decide (expires ≤ now) then
    .error (.msgReceiveError "Forwarded Message has expired and cannot be processed")
  else
    match message.attachments with
    | some (attachment :: _) =>
      match attachment.json, attachment.base64 with
      | some json, _ => (ring.codec.toStr json).mapError fun e => .msgReceiveError
          s!"Attachment data is in JSON format, but cannot be converted to string: {e}"
      | none, some base64 =>
        match ring.codec.base64Padded base64 with
        | .error e => .error (.msgReceiveError s!"Attachment data is in Base64 format, but cannot be decoded: {e}")
        | .ok bytes =>
          match fromUtf8 bytes with
          | some text => .ok text
          | none => .error (.msgReceiveError ("Attachment data is in Base64 format and can be decoded, but " ++
              "the decoded data cannot be converted to a UTF-8 string"))
      | none, none => .error (.msgReceiveError
          "Attachment data is not in a supported format (only JSON and Base64 are supported)")
    | _ => .error (.msgReceiveError "Trying to unpack a forwarded message, though there are no attachments!")

/-- `SharedState::unpack` with the number of forwards that may still be opened. -/
def unpackLoop (config : ATMConfig) :
    ℕ → String → Except ATMError (Message × UnpackMetadata)
  | remaining, msgString => do
    let (msg, metadata) ← unpackOne ring msgString
    if config.unpackForwards ∧ msg.typ = forwardType then
      match remaining with
      | 0 => .error (.msgReceiveError s!"Forward message nesting depth exceeded maximum of {maxForwardDepth}")
      | remaining + 1 =>
        let inner ← extractForwardPayload ring msg config.now
        unpackLoop config remaining inner
    else return (msg, metadata)

def unpack (config : ATMConfig) (message : String) :
    Except ATMError (Message × UnpackMetadata) :=
  unpackLoop ring config maxForwardDepth message

/-! ## What the SDK reports as authenticated -/

/-- A text and the one its forward carries. -/
def Carries (config : ATMConfig) (outer inner : String) : Prop :=
  ∃ msg metadata, unpackOne ring outer = .ok (msg, metadata) ∧ msg.typ = forwardType ∧
    extractForwardPayload ring msg config.now = .ok inner

variable {ring : Keyring Priv Pub Kek} {config : ATMConfig} {msg : Message}
  {metadata : UnpackMetadata}

variable {message : String}

theorem unpackLoop_eq_ok {remaining : ℕ} (h : unpackLoop ring config remaining message = .ok (msg, metadata)) :
    ∃ text, Relation.ReflTransGen (Carries ring config) message text ∧ unpackOne ring text =
    .ok (msg, metadata) := by
  induction remaining generalizing message with
  | zero =>
    rw [unpackLoop] at h
    simp only [bind_eq_ok_iff, Prod.exists] at h
    obtain ⟨msg₁, metadata₁, hone, h⟩ := h
    split at h
    · cases h
    · cases h
      exact ⟨message, .refl, hone⟩
  | succ remaining ih =>
    rw [unpackLoop] at h
    simp only [bind_eq_ok_iff, Prod.exists] at h
    obtain ⟨msg₁, metadata₁, hone, h⟩ := h
    split at h
    · rename_i hforward
      simp only [bind_eq_ok_iff] at h
      obtain ⟨inner, hinner, h⟩ := h
      obtain ⟨text, hreach, htext⟩ := ih h
      exact ⟨text, .head ⟨msg₁, metadata₁, hone, hforward.2, hinner⟩ hreach, htext⟩
    · cases h
      exact ⟨message, .refl, hone⟩

variable {text : String}

theorem unpackJwe_eq_ok {value : Json} {hash : String} (h : unpackJwe ring text value hash = .ok (msg, metadata)) :
    ∃ recipients kid priv decrypted, ring.findSecret curveOf recipients = some (kid, priv) ∧ decrypt ring.codec
    ring.crypto text kid priv (tryResolveSenderPublic ring text) = .ok decrypted ∧ metadata.authenticated =
    decrypted.authenticated ∧ metadata.encryptedFromKid = decrypted.senderKid := by
  unfold unpackJwe at h
  split at h
  · cases h
  rename_i recipients hrecipients
  split at h
  · cases h
  rename_i kid priv hsecret
  simp only [bind_eq_ok_iff, mapError_eq_ok_iff, Prod.exists, pure_eq_ok_iff, Prod.mk.injEq] at h
  obtain ⟨decrypted, hdecrypted, msg₁, signFrom, -, -, rfl⟩ := h
  exact ⟨recipients, kid, priv, decrypted, hsecret, hdecrypted, rfl, rfl⟩

theorem unpackOne_authenticated (h : unpackOne ring text = .ok (msg, metadata))
    (ha : metadata.authenticated = true) : ∃ value hash, unpackJwe ring text value hash = .ok (msg, metadata) := by
  unfold unpackOne at h
  simp only [bind_eq_ok_iff, mapError_eq_ok_iff] at h
  obtain ⟨value, hvalue, h⟩ := h
  split at h
  · exact ⟨value, _, h⟩
  · split at h
    · simp only [bind_eq_ok_iff, Prod.exists, pure_eq_ok_iff, Prod.mk.injEq] at h
      obtain ⟨_, _, -, -, rfl⟩ := h
      cases ha
    · split at h
      · simp only [bind_eq_ok_iff, pure_eq_ok_iff, Prod.mk.injEq] at h
        obtain ⟨_, -, -, rfl⟩ := h
        cases ha
      · cases h

theorem tryResolveSenderPublic_eq_some {pub : Pub} (h : tryResolveSenderPublic ring text = some pub) :
    ∃ header skid, headerValue ring.codec text = some header ∧ header.strField "skid" = some skid ∧
    resolveSkid ring skid = some pub := by
  unfold tryResolveSenderPublic at h
  simp only [bind, Option.bind_eq_some_iff] at h
  obtain ⟨header, hheader, alg, halg, h⟩ := h
  split at h
  · rw [Option.bind_eq_some_iff] at h
    obtain ⟨skid, hskid, h⟩ := h
    exact ⟨header, skid, hheader, hskid, h⟩
  · cases h

/-- What an authenticated text says about its envelope: the key that opened it is the one `skid`
names in the document of its DID, while the key id reported is the one of `apu`. -/
theorem authenticated_spec (h : unpack ring config message = .ok (msg, metadata))
    (ha : metadata.authenticated = true) : ∃ text header skid pub recipients kid priv, Relation.ReflTransGen
    (Carries ring config) message text ∧ headerValue ring.codec text = some header ∧ header.strField "skid" =
    some skid ∧ resolveSkid ring skid = some pub ∧ ring.findSecret curveOf recipients = some (kid, priv) ∧
    OpensWith ring.codec ring.crypto text kid priv pub ∧ metadata.encryptedFromKid = apuKid ring.codec header := by
  obtain ⟨text, hreach, hone⟩ := unpackLoop_eq_ok h
  obtain ⟨value, hash, hjwe⟩ := unpackOne_authenticated hone ha
  obtain ⟨recipients, kid, priv, d, hsecret, hd, hauth, hfrom⟩ := unpackJwe_eq_ok hjwe
  obtain ⟨header, pub, hheader, -, hpub, hkid, hopens⟩ := decrypt_authenticated hd (hauth ▸ ha)
  obtain ⟨header', skid, hheader', hskid, hresolve⟩ := tryResolveSenderPublic_eq_some hpub
  rw [hheader] at hheader'
  cases hheader'
  exact ⟨text, header, skid, pub, recipients, kid, priv, hreach, hheader, hskid, hresolve, hsecret, hopens,
    hfrom.trans hkid⟩

end Sdk

end AffinidiTdk.Didcomm
