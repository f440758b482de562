/-
Secrets (`affinidi-secrets-resolver`, `secrets.rs`, `crypto/`): how a secret is generated, decoded from a
multikey, saved and loaded. A saved secret has its id, its type and its material; the key bytes are made anew
when it is loaded, from the JWK or from the multikey.
-/
import AffinidiTdk.Crypto.Keys

namespace AffinidiTdk.Secrets

open AffinidiTdk.Crypto

/-! ## Multicodec -/

def ed25519Pub : ℕ := 0xed
def ed25519Priv : ℕ := 0x1300
def x25519Pub : ℕ := 0xec
def x25519Priv : ℕ := 0x1302
def secp256k1Pub : ℕ := 0xe7
def secp256k1Priv : ℕ := 0x1301
def p256Pub : ℕ := 0x1200
def p256Priv : ℕ := 0x1306
def p384Pub : ℕ := 0x1201
def p384Priv : ℕ := 0x1307
def p521Pub : ℕ := 0x1202
def p521Priv : ℕ := 0x1308
def mlDsa44Pub : ℕ := 0x1210
def mlDsa44PrivSeed : ℕ := 0x131a
def mlDsa65Pub : ℕ := 0x1211
def mlDsa65PrivSeed : ℕ := 0x131b
def mlDsa87Pub : ℕ := 0x1212
def mlDsa87PrivSeed : ℕ := 0x131c
def slhDsaSha2_128sPub : ℕ := 0x1220

/-- The error kinds of the crate. -/
inductive SecretsResolverError
  | encodingError (msg : String)
  | cryptoError (e : CryptoError)
  | keyError (msg : String)
  deriving DecidableEq

/-- What the secrets take from elsewhere: the curves, ML-DSA, the multibase texts and the varints. -/
structure Crates where
  keys : Crypto.Primitives
  mlDsaPublic : KeyType → Bytes → Bytes
  multibaseDecode : List Char → Except String Bytes
  multibaseEncode : Bytes → List Char
  varintDecode : Bytes → Except String (ℕ × Bytes)
  varintEncode : ℕ → Bytes

/-- The codec of encoded bytes, and the bytes. -/
def multiEncodedParts (crates : Crates) (bytes : Bytes) : Except SecretsResolverError (ℕ × Bytes) :=
  (crates.varintDecode bytes).mapError fun e => .encodingError s!"varint decode: {e}"

def encodeBytes (crates : Crates) (codec : ℕ) (bytes : Bytes) : Bytes := crates.varintEncode codec ++ bytes

/-! ## Secrets -/

/-- The types of a secret. -/
inductive SecretType
  | jsonWebKey2020
  | x25519KeyAgreementKey2019
  | x25519KeyAgreementKey2020
  | ed25519VerificationKey2018
  | ed25519VerificationKey2020
  | ecdsaSecp256k1VerificationKey2019
  | multikey
  | other
  deriving DecidableEq

/-- The forms a private key is written in. -/
inductive SecretMaterial
  | jwk (jwk : JWK)
  | privateKeyMultibase (text : List Char)
  | base58 (privateKeyBase58 : List Char)
  | multibase (privateKeyMultibase : List Char)
  deriving DecidableEq

/-- What is written of a secret, and read back. -/
structure SecretShadow where
  id : String
  type_ : SecretType
  secretMaterial : SecretMaterial

/-- A private key with its id and its bytes. -/
structure Secret where
  id : String
  type_ : SecretType
  secretMaterial : SecretMaterial
  privateBytes : Bytes
  publicBytes : Bytes
  keyType : KeyType
  deriving DecidableEq

namespace Secret

/-- A secret of a key pair, under a given id or one that was drawn. -/
def ofKeyPair (drawnId : String) (kid : Option String) (keypair : KeyPair) : Secret :=
  ⟨kid.getD drawnId, .jsonWebKey2020, .jwk keypair.jwk, keypair.privateBytes, keypair.publicBytes, keypair.keyType⟩

/-- What a generation draws: an id, and a key. -/
structure Drawn where
  id : String
  key : Bytes

def generateEd25519 (crates : Crates) (drawn : Drawn) (kid : Option String) (seed : Option Bytes) : Secret :=
  ofKeyPair drawn.id kid (Crypto.generateEd25519 crates.keys drawn.key seed)

/-- Without a seed the key is that of an Ed25519 secret; without an id the secret is called `x25519`. -/
def generateX25519 (crates : Crates) (drawn : Drawn) (kid : Option String) (seed : Option Bytes) :
    Except SecretsResolverError Secret :=
  let seed := match seed with
    | some seed => seed
    | none => ed25519PrivateToX25519 crates.keys (generateEd25519 crates drawn kid none).privateBytes
  let x25519 := crates.keys.x25519Secret seed
  pure (ofKeyPair "x25519" kid (octetPair .x25519 x25519 (crates.keys.x25519Public x25519)))

/-- The generation on an elliptic curve. -/
def generateOn (curve : Curve) (keyType : KeyType) (drawn : Drawn) (kid : Option String) (secret : Option Bytes) :
    Except SecretsResolverError Secret := do
  let keypair ← (generateEc curve keyType drawn.key secret).mapError .cryptoError
  pure (ofKeyPair drawn.id kid keypair)

def generateP256 (crates : Crates) := generateOn crates.keys.p256 .p256

def generateP384 (crates : Crates) := generateOn crates.keys.p384 .p384

def generateP521 (crates : Crates) := generateOn crates.keys.p521 .p521

def generateSecp256k1 (crates : Crates) := generateOn crates.keys.secp256k1 .secp256k1

/-- An ML-DSA secret, which is its seed; no material is kept. -/
def generateMlDsa (crates : Crates) (keyType : KeyType) (drawn : Drawn) (kid : Option String) (seed : Option Bytes) :
    Secret :=
  let seed := seed.getD drawn.key
  ⟨kid.getD drawn.id, .multikey, .privateKeyMultibase [], seed, crates.mlDsaPublic keyType seed, keyType⟩

/-! ## JWK and multikey -/

def convertToRaw (input : List Char) : Except SecretsResolverError Bytes :=
  (Base64.decode input).elim (throw (.keyError "Failed to decode base64url")) pure

/-- The bytes of the private member, which must be there. -/
def privateRaw (d : Option (List Char)) : Except SecretsResolverError Bytes := do
  let d ← d.elim (throw (.keyError "Must have secret key available")) pure
  convertToRaw d

def fromJwk (jwk : JWK) : Except SecretsResolverError Secret :=
  match jwk.params with
  | .ec params => do
    let x ← convertToRaw params.x
    let y ← convertToRaw params.y
    let privateBytes ← privateRaw params.d
    let keyType ← (KeyType.tryFrom params.curve).mapError .cryptoError
    pure ⟨jwk.keyId.getD "", .jsonWebKey2020, .jwk jwk, privateBytes, x ++ y, keyType⟩
  | .okp params => do
    let privateBytes ← privateRaw params.d
    let publicBytes ← convertToRaw params.x
    let keyType ← (KeyType.tryFrom params.curve).mapError .cryptoError
    pure ⟨jwk.keyId.getD "", .jsonWebKey2020, .jwk jwk, privateBytes, publicBytes, keyType⟩

/-- A key of a length that is checked first. -/
def ofLength (label : String) (data : Bytes) (make : Except SecretsResolverError Secret) :
    Except SecretsResolverError Secret :=
  if data.length ≠ 32 then throw (.keyError s!"Invalid {label} length") else make

def fromMultibase (crates : Crates) (drawn : Drawn) (private_ : List Char) (kid : Option String) :
    Except SecretsResolverError Secret := do
  let raw ← (crates.multibaseDecode private_).mapError fun e => .keyError s!"Failed to decode private key: {e}"
  let (codec, data) ← multiEncodedParts crates raw
  if codec = ed25519Priv then
    ofLength "ED25519 private key" data (pure (generateEd25519 crates drawn kid (some data)))
  else if codec = x25519Priv then ofLength "X25519 private key" data (generateX25519 crates drawn kid (some data))
  else if codec = p256Priv then ofLength "P256 private key" data (generateP256 crates drawn kid (some data))
  else if codec = p384Priv then generateP384 crates drawn kid (some data)
  else if codec = p521Priv then generateP521 crates drawn kid (some data)
  else if codec = secp256k1Priv then generateSecp256k1 crates drawn kid (some data)
  else if codec = mlDsa44PrivSeed then
    ofLength "ML-DSA-44 seed" data (pure (generateMlDsa crates .mlDsa44 drawn kid (some data)))
  else if codec = mlDsa65PrivSeed then
    ofLength "ML-DSA-65 seed" data (pure (generateMlDsa crates .mlDsa65 drawn kid (some data)))
  else if codec = mlDsa87PrivSeed then
    ofLength "ML-DSA-87 seed" data (pure (generateMlDsa crates .mlDsa87 drawn kid (some data)))
  else throw (.keyError "Unsupported key type in from_multibase")

/-- An uncompressed point in compressed form, under its codec. -/
def compressEcPoint (crates : Crates) (publicBytes : Bytes) (compressedLen codec : ℕ) :
    Except SecretsResolverError Bytes :=
  let coordLen := compressedLen - 1
  let required := 1 + 2 * coordLen
  if publicBytes.length < required then
    throw (.keyError
      s!"public_bytes too short to compress: expected >= {required} bytes, got {publicBytes.length}")
  else
    let lastYByte := publicBytes.getD (required - 1) 0
    let parity : UInt8 := if lastYByte % 2 = 0 then 2 else 3
    pure (encodeBytes crates codec (parity :: (publicBytes.drop 1).take coordLen))

def getPublicKeymultibase (crates : Crates) (secret : Secret) : Except SecretsResolverError (List Char) := do
  let encoded ← match secret.keyType with
    | .ed25519 => pure (encodeBytes crates ed25519Pub secret.publicBytes)
    | .x25519 => pure (encodeBytes crates x25519Pub secret.publicBytes)
    | .p256 => compressEcPoint crates secret.publicBytes 33 p256Pub
    | .p384 => compressEcPoint crates secret.publicBytes 49 p384Pub
    | .p521 => compressEcPoint crates secret.publicBytes 67 p521Pub
    | .secp256k1 => compressEcPoint crates secret.publicBytes 33 secp256k1Pub
    | .mlDsa44 => pure (encodeBytes crates mlDsa44Pub secret.publicBytes)
    | .mlDsa65 => pure (encodeBytes crates mlDsa65Pub secret.publicBytes)
    | .mlDsa87 => pure (encodeBytes crates mlDsa87Pub secret.publicBytes)
    | .slhDsaSha2_128s => pure (encodeBytes crates slhDsaSha2_128sPub secret.publicBytes)
    | .bls12381G2 | .unknown => throw (.keyError "Unsupported key type")
  pure (crates.multibaseEncode encoded)

def getPrivateKeymultibase (crates : Crates) (secret : Secret) : Except SecretsResolverError (List Char) := do
  let encoded ← match secret.keyType with
    | .ed25519 => pure (encodeBytes crates ed25519Priv secret.privateBytes)
    | .x25519 => pure (encodeBytes crates x25519Priv secret.privateBytes)
    | .p256 => pure (encodeBytes crates p256Priv secret.privateBytes)
    | .p384 => pure (encodeBytes crates p384Priv secret.privateBytes)
    | .p521 => pure (encodeBytes crates p521Priv secret.privateBytes)
    | .secp256k1 => pure (encodeBytes crates secp256k1Priv secret.privateBytes)
    | .mlDsa44 => pure (encodeBytes crates mlDsa44PrivSeed secret.privateBytes)
    | .mlDsa65 => pure (encodeBytes crates mlDsa65PrivSeed secret.privateBytes)
    | .mlDsa87 => pure (encodeBytes crates mlDsa87PrivSeed secret.privateBytes)
    | .slhDsaSha2_128s =>
      throw (.keyError
        "SLH-DSA has no private-key multicodec registered; persist raw private_bytes instead of encoding as multikey")
    | .bls12381G2 | .unknown => throw (.keyError "Unsupported key type")
  pure (crates.multibaseEncode encoded)

/-! ## Saving and loading -/

/-- What is saved: the fields that are not skipped. -/
def serialize (secret : Secret) : SecretShadow := ⟨secret.id, secret.type_, secret.secretMaterial⟩

/-- A loaded secret. The drawn values are not used: a multikey is loaded with its id. -/
def tryFrom (crates : Crates) (drawn : Drawn) (shadow : SecretShadow) : Except SecretsResolverError Secret :=
  match shadow.secretMaterial with
  | .jwk jwk => do
    let secret ← fromJwk jwk
    pure { secret with id := shadow.id, type_ := shadow.type_ }
  | .privateKeyMultibase private_ => fromMultibase crates drawn private_ (some shadow.id)
  | .base58 _ | .multibase _ => throw (.keyError "Unsupported secret material type")

end Secret

end AffinidiTdk.Secrets
