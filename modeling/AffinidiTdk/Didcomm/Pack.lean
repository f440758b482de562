/-
Packing of messages (`message/pack.rs`, `jwe/encrypt.rs`, `jws/sign.rs`, `jws/verify.rs`) on the JOSE layer of
affinidi-crypto (`jose/concat_kdf.rs`, `jose/ecdh.rs`, `jose/key_agreement.rs`). Curves, AES key wrap, hashes and
Ed25519 are parameters, and so are the random draws.
-/
import AffinidiTdk.Didcomm.ContentEncryption
import AffinidiTdk.Didcomm.MessageJson
import AffinidiTdk.Didcomm.MetaEnvelope
import AffinidiTdk.Lib.Base64

namespace AffinidiTdk.Didcomm

open Fallible

/-! ## Primitives -/

/-- The operations of the curve, cipher and hash crates; a shared secret is that of a private and a public key. -/
structure Primitives (Priv Pub : Type) extends CbcHmac where
  sha256 : Bytes → Bytes
  publicKey : Priv → Pub
  curve : Pub → Curve
  x : Pub → Bytes
  y : Pub → Bytes
  fromX25519 : Bytes → Pub
  fromSec1 : Curve → Bytes → Except String Pub
  diffieHellman : Priv → Pub → Except String Bytes
  wrap : Bytes → Bytes → Except String Bytes
  unwrap : Bytes → Bytes → Except String Bytes
  sign : Bytes → Bytes → Bytes
  verify : Bytes → Bytes → Bytes → Except String Unit
  ed25519Public : Bytes → Bytes

/-- What the packing relies on: coordinates determine a key, the two sides of a Diffie-Hellman agree on one curve,
keys are unwrapped as they were wrapped and signatures verify. -/
structure Primitives.Lawful {Priv Pub : Type} (prims : Primitives Priv Pub) :
    Prop extends prims.toCbcHmac.Lawful where
  length_sha256 : ∀ data, (prims.sha256 data).length = 32
  x25519 : ∀ pub, prims.curve pub = .x25519 → (prims.x pub).length = 32 ∧ prims.fromX25519 (prims.x pub) = pub
  sec1 : ∀ pub, prims.curve pub ≠ .x25519 →
    prims.fromSec1 (prims.curve pub) (4 :: prims.x pub ++ prims.y pub) = .ok pub
  agree : ∀ a b, prims.curve (prims.publicKey a) = prims.curve (prims.publicKey b) →
    ∃ z, prims.diffieHellman a (prims.publicKey b) = .ok z ∧ prims.diffieHellman b (prims.publicKey a) = .ok z
  unwrap_wrap : ∀ kek cek, kek.length = 32 → cek.length = 64 →
    ∃ wrapped, prims.wrap kek cek = .ok wrapped ∧ prims.unwrap kek wrapped = .ok cek
  length_sign : ∀ priv data, (prims.sign priv data).length = 64
  verify_sign : ∀ priv data, prims.verify data (prims.sign priv data) (prims.ed25519Public priv) = .ok ()

/-- What is drawn at random for one message. -/
structure Draws {Priv Pub : Type} (prims : Primitives Priv Pub) where
  ephemeral : Curve → Priv
  cek : Bytes
  iv : Bytes
  curve_ephemeral : ∀ c, prims.curve (prims.publicKey (ephemeral c)) = c
  length_cek : cek.length = 64
  length_iv : iv.length = 16

/-! ## Texts -/

/-- `Base64UrlUnpadded::encode_string` and `decode_vec`. -/
def encodeB64 (bytes : Bytes) : String := String.ofList (Base64.encode bytes)

def decodeB64 (text : String) : Except String Bytes :=
  match Base64.decode text.toList with
  | some bytes => .ok bytes
  | none => .error "invalid Base64 encoding"

@[simp] theorem decodeB64_encodeB64 (bytes : Bytes) : decodeB64 (encodeB64 bytes) = .ok bytes := by
  rw [decodeB64, encodeB64, String.toList_ofList, Base64.decode_encode]

def fromSlice (reader : Json.Reader) (bytes : Bytes) : Except String Json :=
  match fromUtf8 bytes with
  | some text => reader.parse text
  | none => .error "invalid unicode code point"

/-- The decoders of the crate over a JSON reader; those that unpacking does not use are taken from another codec. -/
def wireCodec (reader : Json.Reader) (others : Codec) : Codec :=
  { others with
    fromStr := reader.parse
    fromSlice := fromSlice reader
    toStr := fun value => .ok value.toText
    message := fun bytes => fromSlice reader bytes >>= Message.ofJson
    base64 := decodeB64 }

/-! ## Keys as JSON -/

def Curve.kty : Curve → String
  | .x25519 => "OKP"
  | _ => "EC"

def Curve.jwkCrv : Curve → String
  | .x25519 => "X25519"
  | .p256 => "P-256"
  | .k256 => "secp256k1"
  | .p384 => "P-384"
  | .p521 => "P-521"

def Curve.debug : Curve → String
  | .x25519 => "X25519"
  | .p256 => "P256"
  | .k256 => "K256"
  | .p384 => "P384"
  | .p521 => "P521"

section

variable {Priv Pub : Type} (prims : Primitives Priv Pub)

def toJwk (pub : Pub) : Json :=
  .obj (members [("crv", some (.str (prims.curve pub).jwkCrv)), ("kty", some (.str (prims.curve pub).kty)),
    ("x", some (.str (encodeB64 (prims.x pub)))),
    ("y", if prims.curve pub = .x25519 then none else some (.str (encodeB64 (prims.y pub))))])

/-- A text of a key. -/
def jwkStr (jwk : Json) (key msg : String) : Except String String :=
  match jwk.strField key with
  | some s => .ok s
  | none => .error msg

/-- The bytes of an uncompressed point. -/
def ecPointFromJwk (jwk : Json) : Except String Bytes := do
  let x ← jwkStr jwk "x" "missing x in EC JWK"
  let y ← jwkStr jwk "y" "missing y in EC JWK"
  let xBytes ← (decodeB64 x).mapError ("invalid x: " ++ ·)
  let yBytes ← (decodeB64 y).mapError ("invalid y: " ++ ·)
  return 4 :: xBytes ++ yBytes

def x25519FromJwk (jwk : Json) : Except String Pub := do
  let x ← jwkStr jwk "x" "missing x in X25519 JWK"
  let bytes ← (decodeB64 x).mapError ("invalid x: " ++ ·)
  if bytes.length ≠ 32 then
    throw "X25519 key must be 32 bytes"
  return prims.fromX25519 bytes

def ecFromJwk (curve : Curve) (jwk : Json) : Except String Pub := do
  let point ← ecPointFromJwk jwk
  (prims.fromSec1 curve point).mapError fun e => s!"invalid {curve.jwkCrv} key: " ++ e

def fromJwk (jwk : Json) : Except String Pub :=
  match jwk.strField "crv" with
  | none => .error "missing crv in JWK"
  | some crv =>
    if crv = "X25519" then x25519FromJwk prims jwk
    else if crv = "P-256" then ecFromJwk prims .p256 jwk
    else if crv = "secp256k1" then ecFromJwk prims .k256 jwk
    else if crv = "P-384" then ecFromJwk prims .p384 jwk
    else if crv = "P-521" then ecFromJwk prims .p521 jwk
    else .error s!"unsupported key-agreement curve: {crv}"

/-! ## Key derivation -/

def u32BeBytes (n : ℕ) : Bytes := (Bytes.beBytes 4 (n % 2 ^ 32)).map UInt8.ofNat

/-- A field of the derivation's input behind its length. -/
def lengthPrefixed (field : Bytes) : Bytes := u32BeBytes field.length ++ field

/-- What the two derivations hash in common. -/
def otherInfo (z alg apu apv : Bytes) : Bytes :=
  u32BeBytes 1 ++ z ++ lengthPrefixed alg ++ lengthPrefixed apu ++ lengthPrefixed apv ++ u32BeBytes 256

def concatKdf (z alg apu apv : Bytes) : Bytes := (prims.sha256 (otherInfo z alg apu apv)).take 32

/-- With the tag at the end, without its length in the legacy form. -/
def concatKdf1pu (legacy : Bool) (z alg apu apv ccTag : Bytes) : Bytes :=
  if ccTag = [] then concatKdf prims z alg apu apv
  else (prims.sha256 (otherInfo z alg apu apv ++ if legacy then ccTag else lengthPrefixed ccTag)).take 32

/-- A key encryption key has 32 bytes. -/
def toKek (key : Bytes) (msg : String) : Except String Bytes := if key.length = 32 then .ok key else .error msg

def deriveSenderKey (ephemeral : Priv) (recipientPublic : Pub) (apu apv : Bytes) : Except String Bytes := do
  let z ← prims.diffieHellman ephemeral recipientPublic
  toKek (concatKdf prims z (utf8 "ECDH-ES+A256KW") apu apv) "derived key wrong size"

def deriveSenderKey1pu (ephemeral senderPrivate : Priv) (recipientPublic : Pub) (apu apv ccTag : Bytes) :
    Except String Bytes := do
  let ze ← prims.diffieHellman ephemeral recipientPublic
  let zs ← prims.diffieHellman senderPrivate recipientPublic
  toKek (concatKdf1pu prims false (ze ++ zs) (utf8 "ECDH-1PU+A256KW") apu apv ccTag) "derived key wrong size"

def deriveKeyEsRecipient (recipientPrivate : Priv) (ephemeralPublic : Pub) (alg : String) (apu apv : Bytes) :
    Except String Bytes := do
  let z ← prims.diffieHellman recipientPrivate ephemeralPublic
  toKek (concatKdf prims z (utf8 alg) apu apv) "KEK wrong size"

/-- `derive_key_1pu_recipient` and its legacy form. -/
def deriveKey1puRecipient (legacy : Bool) (recipientPrivate : Priv) (senderPublic ephemeralPublic : Pub)
    (alg : String)
    (apu apv ccTag : Bytes) : Except String Bytes := do
  let ze ← prims.diffieHellman recipientPrivate ephemeralPublic
  let zs ← prims.diffieHellman recipientPrivate senderPublic
  toKek (concatKdf1pu prims legacy (ze ++ zs) (utf8 alg) apu apv ccTag) "KEK wrong size"

/-- The recipient's side of the envelope. -/
def wireCrypto : Crypto Priv Pub Bytes where
  publicFromJwk := fromJwk prims
  deriveKey1puRecipient := deriveKey1puRecipient prims false
  deriveKey1puRecipientLegacy := deriveKey1puRecipient prims true
  deriveKeyEsRecipient := deriveKeyEsRecipient prims
  unwrap := prims.unwrap
  decrypt := fun ciphertext cek iv aad tag => contentDecrypt prims.toCbcHmac ciphertext cek iv (utf8 aad) tag

/-! ## Encrypted messages -/

def Recipient.toJson (recipient : Recipient) : Json :=
  .obj [("header", .obj [("kid", .str recipient.kid)]), ("encrypted_key", .str recipient.encryptedKey)]

def Jwe.toJson (jwe : Jwe) : Json :=
  .obj [("protected", .str jwe.protectedHeader), ("recipients", .arr (jwe.recipients.map Recipient.toJson)),
    ("iv", .str jwe.iv), ("ciphertext", .str jwe.ciphertext), ("tag", .str jwe.tag)]

def ProtectedHeader.fields (header : ProtectedHeader) : List (String × Option Json) :=
  [("typ", header.typ.map .str), ("alg", some (.str header.alg)), ("enc", some (.str header.enc)),
    ("skid", header.skid.map .str), ("apu", header.apu.map .str), ("apv", some (.str header.apv)),
    ("epk", some header.epk)]

def ProtectedHeader.toJson (header : ProtectedHeader) : Json := .obj (members header.fields)

/-- The hash over the sorted key ids of the recipients. -/
def computeApv (kids : List String) : Bytes :=
  prims.sha256 (utf8 (Text.join '.' (kids.mergeSort fun a b => decide (a ≤ b))))

/-- Every recipient has a key id and a key on the curve of the first. -/
def checkRecipients (curve : Curve) (recipients : List (String × Pub)) : Except DIDCommError Unit :=
  recipients.forM fun recipient =>
    if recipient.1 = "" then throw (.invalidMessage "recipient KID must not be empty")
    else if prims.curve recipient.2 ≠ curve then
      throw (.keyAgreement (s!"all recipients must use the same curve; expected {curve.debug} but '{recipient.1}' " ++
        s!"uses {(prims.curve recipient.2).debug}"))
    else .ok ()

/-- The key wrapped for one recipient under a derived key. -/
def wrapFor (derive : Pub → Except String Bytes) (cek : Bytes) (recipient : String × Pub) :
    Except DIDCommError Recipient := do
  let kek ← (derive recipient.2).mapError .keyAgreement
  let wrapped ← (prims.wrap kek cek).mapError .keyWrap
  return ⟨recipient.1, encodeB64 wrapped⟩

variable {prims} (draws : Draws prims)

/-- The envelope around a plaintext under a protected header. -/
def sealEnvelope (plaintext : Bytes) (header : ProtectedHeader) (derive : Bytes → Pub → Except String Bytes)
    (recipients : List (String × Pub)) : Except DIDCommError String := do
  let protectedB64 := encodeB64 (utf8 header.toJson.toText)
  let sealed := contentEncrypt prims.toCbcHmac plaintext draws.cek draws.iv (utf8 protectedB64)
  let jweRecipients ← recipients.mapM (wrapFor prims (derive sealed.2) draws.cek)
  return (Jwe.toJson ⟨protectedB64, jweRecipients, encodeB64 draws.iv, encodeB64 sealed.1,
    encodeB64 sealed.2⟩).toText

variable (prims) in
def authcryptHeader (senderKid : String) (apvRaw : Bytes) (ephemeral : Priv) : ProtectedHeader :=
  ⟨some "application/didcomm-encrypted+json", "ECDH-1PU+A256KW", "A256CBC-HS512", some senderKid,
    some (encodeB64 (utf8 senderKid)), encodeB64 apvRaw, toJwk prims (prims.publicKey ephemeral)⟩

def authcrypt (plaintext : Bytes) (senderKid : String) (senderPrivate : Priv) (recipients : List (String × Pub)) :
    Except DIDCommError String :=
  match recipients with
  | [] => .error (.invalidMessage "no recipients")
  | first :: _ => do
    if senderKid = "" then
      throw (.invalidMessage "sender KID must not be empty")
    let curve := prims.curve first.2
    checkRecipients prims curve recipients
    let ephemeral := draws.ephemeral curve
    let apuRaw := utf8 senderKid
    let apvRaw := computeApv prims (recipients.map Prod.fst)
    sealEnvelope draws plaintext (authcryptHeader prims senderKid apvRaw ephemeral)
      (fun tag recipientPublic => deriveSenderKey1pu prims ephemeral senderPrivate recipientPublic apuRaw apvRaw tag)
      recipients

variable (prims) in
def anoncryptHeader (apvRaw : Bytes) (ephemeral : Priv) : ProtectedHeader :=
  ⟨some "application/didcomm-encrypted+json", "ECDH-ES+A256KW", "A256CBC-HS512", none, none, encodeB64 apvRaw,
    toJwk prims (prims.publicKey ephemeral)⟩

def anoncrypt (plaintext : Bytes) (recipients : List (String × Pub)) : Except DIDCommError String :=
  match recipients with
  | [] => .error (.invalidMessage "no recipients")
  | first :: _ => do
    let curve := prims.curve first.2
    checkRecipients prims curve recipients
    let ephemeral := draws.ephemeral curve
    let apvRaw := computeApv prims (recipients.map Prod.fst)
    sealEnvelope draws plaintext (anoncryptHeader prims apvRaw ephemeral)
      (fun _ recipientPublic => deriveSenderKey prims ephemeral recipientPublic [] apvRaw) recipients

/-! ## Signed messages -/

/-- A signature of a JWS with its headers. -/
structure JwsSignature where
  protectedHeader : String
  header : Option (Option String)
  signature : String

/-- The general JSON form of a JWS. -/
structure Jws where
  payload : String
  signatures : List JwsSignature

/-- The protected header of a JWS. -/
structure JwsProtectedHeader where
  typ : Option String
  alg : String
  kid : Option String
  jwk : Option Json

def JwsSignature.toJson (signature : JwsSignature) : Json :=
  .obj (members [("protected", some (.str signature.protectedHeader)),
    ("header", signature.header.map fun kid => .obj (members [("kid", kid.map .str)])),
    ("signature", some (.str signature.signature))])

def Jws.toJson (jws : Jws) : Json :=
  .obj [("payload", .str jws.payload), ("signatures", .arr (jws.signatures.map JwsSignature.toJson))]

def JwsProtectedHeader.fields (header : JwsProtectedHeader) : List (String × Option Json) :=
  [("typ", header.typ.map .str), ("alg", some (.str header.alg)), ("kid", header.kid.map .str), ("jwk", header.jwk)]

def JwsProtectedHeader.toJson (header : JwsProtectedHeader) : Json := .obj (members header.fields)

/-- The unprotected header of a signature. -/
def unprotectedKid (value : Json) : Except String (Option String) := do
  let header ← readObject value
  optional readStr header "kid"

def JwsSignature.ofJson (value : Json) : Except String JwsSignature := do
  let protectedHeader ← required readStr value "protected"
  let header ← optional unprotectedKid value "header"
  let signature ← required readStr value "signature"
  return ⟨protectedHeader, header, signature⟩

def Jws.ofJson (value : Json) : Except String Jws := do
  let payload ← required readStr value "payload"
  let signatures ← required (readList JwsSignature.ofJson) value "signatures"
  return ⟨payload, signatures⟩

def JwsProtectedHeader.ofJson (value : Json) : Except String JwsProtectedHeader := do
  let typ ← optional readStr value "typ"
  let alg ← required readStr value "alg"
  let kid ← optional readStr value "kid"
  let jwk ← optional .ok value "jwk"
  return ⟨typ, alg, kid, jwk⟩

variable (prims)

def signEd25519 (payload : Bytes) (signerKid : String) (privateKey : Bytes) : Except DIDCommError String :=
  let header : JwsProtectedHeader := ⟨some "application/didcomm-signed+json", "EdDSA", some signerKid, none⟩
  let headerB64 := encodeB64 (utf8 header.toJson.toText)
  let payloadB64 := encodeB64 payload
  let sig := prims.sign privateKey (utf8 (headerB64 ++ "." ++ payloadB64))
  .ok (Jws.toJson ⟨payloadB64, [⟨headerB64, none, encodeB64 sig⟩]⟩).toText

def verifyEd25519 (codec : Codec) (jwsStr : String) (publicKey : Bytes) : Except DIDCommError VerifiedJws := do
  let jws ← invalid "invalid JWS JSON" (codec.fromStr jwsStr >>= Jws.ofJson)
  match jws.signatures with
  | [] => .error (.invalidMessage "no signatures in JWS")
  | sigEntry :: _ =>
    let headerBytes ← invalid "invalid protected header" (codec.base64 sigEntry.protectedHeader)
    let header ← invalid "invalid header JSON" (codec.fromSlice headerBytes >>= JwsProtectedHeader.ofJson)
    if header.alg ≠ "EdDSA" then
      throw (.unsupportedAlgorithm s!"expected EdDSA, got {header.alg}")
    let sig ← invalid "invalid signature base64" (codec.base64 sigEntry.signature)
    if sig.length ≠ 64 then
      throw (.invalidMessage "signature must be 64 bytes")
    (prims.verify (utf8 (sigEntry.protectedHeader ++ "." ++ jws.payload)) sig publicKey).mapError .verification
    let payload ← invalid "invalid payload base64" (codec.base64 jws.payload)
    return ⟨payload, header.kid <|> sigEntry.header.join⟩

/-! ## Packing -/

variable {prims}

def packEncryptedAuthcrypt (message : Message) (senderKid : String) (senderPrivate : Priv)
    (recipients : List (String × Pub)) : Except DIDCommError String :=
  authcrypt draws (utf8 message.toJson.toText) senderKid senderPrivate recipients

def packEncryptedAnoncrypt (message : Message) (recipients : List (String × Pub)) : Except DIDCommError String :=
  anoncrypt draws (utf8 message.toJson.toText) recipients

variable (prims)

def packSigned (message : Message) (signerKid : String) (privateKey : Bytes) : Except DIDCommError String :=
  signEd25519 prims (utf8 message.toJson.toText) signerKid privateKey

def packPlaintext (message : Message) : Except DIDCommError String := .ok message.toJson.toText

end

end AffinidiTdk.Didcomm
