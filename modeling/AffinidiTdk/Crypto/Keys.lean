/-
Keys and their JWK form (`affinidi-crypto`, `key_type.rs`, `jwk.rs`, `ed25519.rs`, `p256.rs`, `p384.rs`,
`p521.rs`, `secp256k1.rs`). The arithmetic of the curves is a parameter; the key pairs, with the bytes they
keep and the coordinates they publish, are as the code builds them.
-/
import AffinidiTdk.Lib.Base64
import AffinidiTdk.Lib.Except

namespace AffinidiTdk.Crypto

abbrev Bytes := List UInt8

/-! ## Key types -/

/-- The kinds of keys. -/
inductive KeyType
  | ed25519
  | x25519
  | p256
  | p384
  | p521
  | secp256k1
  | bls12381G2
  | mlDsa44
  | mlDsa65
  | mlDsa87
  | slhDsaSha2_128s
  | unknown
  deriving DecidableEq

/-- The error kinds of the crate. -/
inductive CryptoError
  | keyError (msg : String)
  | unsupportedKeyType (name : String)
  deriving DecidableEq

namespace KeyType

def tryFrom : String → Except CryptoError KeyType
  | "Ed25519" => pure ed25519
  | "X25519" => pure x25519
  | "P-256" => pure p256
  | "P-384" => pure p384
  | "P-521" => pure p521
  | "secp256k1" => pure secp256k1
  | "Bls12381G2" => pure bls12381G2
  | "ML-DSA-44" => pure mlDsa44
  | "ML-DSA-65" => pure mlDsa65
  | "ML-DSA-87" => pure mlDsa87
  | "SLH-DSA-SHA2-128s" => pure slhDsaSha2_128s
  | value => throw (.unsupportedKeyType value)

def name : KeyType → String
  | ed25519 => "Ed25519"
  | x25519 => "X25519"
  | p256 => "P-256"
  | p384 => "P-384"
  | p521 => "P-521"
  | secp256k1 => "secp256k1"
  | bls12381G2 => "Bls12381G2"
  | mlDsa44 => "ML-DSA-44"
  | mlDsa65 => "ML-DSA-65"
  | mlDsa87 => "ML-DSA-87"
  | slhDsaSha2_128s => "SLH-DSA-SHA2-128s"
  | unknown => "Unknown"

theorem tryFrom_name {keyType : KeyType} (h : keyType ≠ unknown) : tryFrom keyType.name = .ok keyType := by
  cases keyType with
  | unknown => exact absurd rfl h
  | _ => rfl

end KeyType

/-! ## JWK -/

/-- The members of a JWK over an elliptic curve. -/
structure ECParams where
  curve : String
  x : List Char
  y : List Char
  d : Option (List Char)
  deriving DecidableEq

/-- The members of an octet key pair JWK. -/
structure OctectParams where
  curve : String
  x : List Char
  d : Option (List Char)
  deriving DecidableEq

/-- The members of a JWK that depend on its kind. -/
inductive Params
  | ec (params : ECParams)
  | okp (params : OctectParams)
  deriving DecidableEq

/-- A JSON Web Key. -/
structure JWK where
  keyId : Option String
  params : Params
  deriving DecidableEq

/-! ## Key pairs -/

/-- A generated key pair in bytes and as a JWK. -/
structure KeyPair where
  keyType : KeyType
  privateBytes : Bytes
  publicBytes : Bytes
  jwk : JWK

/-- What a crate for an elliptic curve gives: the scalar of a private key's bytes, in its fixed width, and the
coordinates of the public key. -/
structure Curve where
  fromSlice : Bytes → Except String Bytes
  x : Bytes → Bytes
  y : Bytes → Bytes

/-- The uncompressed form of a point. -/
def Curve.encodedPoint (curve : Curve) (scalar : Bytes) : Bytes := 4 :: (curve.x scalar ++ curve.y scalar)

/-- The scalar of a secret, or one that was drawn. -/
def Curve.signingKey (curve : Curve) (keyType : KeyType) (drawn : Bytes) : Option Bytes → Except CryptoError Bytes
  | some secret =>
    (curve.fromSlice secret).mapError fun e => .keyError s!"{keyType.name} secret material isn't valid: {e}"
  | none => pure drawn

/-- A key pair on an elliptic curve; the modules of the four curves are alike in this. -/
def generateEc (curve : Curve) (keyType : KeyType) (drawn : Bytes) (secret : Option Bytes) :
    Except CryptoError KeyPair := do
  let privateBytes ← curve.signingKey keyType drawn secret
  pure ⟨keyType, privateBytes, curve.encodedPoint privateBytes,
    ⟨none, .ec ⟨keyType.name, Base64.encode (curve.x privateBytes), Base64.encode (curve.y privateBytes),
      some (Base64.encode privateBytes)⟩⟩⟩

/-- A pair of an octet key. -/
def octetPair (keyType : KeyType) (privateBytes publicBytes : Bytes) : KeyPair :=
  ⟨keyType, privateBytes, publicBytes,
    ⟨none, .okp ⟨keyType.name, Base64.encode publicBytes, some (Base64.encode privateBytes)⟩⟩⟩

/-- The crates of the curves, and SHA-512. `x25519Secret` is what an X25519 secret keeps of its bytes. -/
structure Primitives where
  p256 : Curve
  p384 : Curve
  p521 : Curve
  secp256k1 : Curve
  ed25519Public : Bytes → Bytes
  x25519Secret : Bytes → Bytes
  x25519Public : Bytes → Bytes
  sha512 : Bytes → Bytes

/-- An Ed25519 pair from a seed, or from one that was drawn. -/
def generateEd25519 (prims : Primitives) (drawn : Bytes) (seed : Option Bytes) : KeyPair :=
  let privateBytes := seed.getD drawn
  octetPair .ed25519 privateBytes (prims.ed25519Public privateBytes)

/-- The X25519 secret of an Ed25519 secret: the first half of its hash, clamped. -/
def ed25519PrivateToX25519 (prims : Primitives) (secret : Bytes) : Bytes :=
  let h := prims.sha512 secret
  ((h.modify 0 (· &&& 248)).modify 31 fun byte => (byte &&& 127) ||| 64).take 32

end AffinidiTdk.Crypto
