/-
Key material (`affinidi-did-common`, `did_method/key.rs`): what is generated, what is loaded from a JWK, and the public
multikey of either. A generated key has its public point with the leading byte of its encoding, a loaded one without.
-/
import AffinidiTdk.Secrets.SaveLoad
import Mathlib.Data.List.GetD

namespace AffinidiTdk.Did

open AffinidiTdk.Crypto AffinidiTdk.Secrets Fallible List Option

/-- Why key material is refused. -/
inductive KeyError
  | key (msg : String)
  | unsupportedKeyType (name : String)
  | crypto (e : CryptoError)

/-- The verification method types that are told apart. -/
inductive KeyMaterialType
  | jsonWebKey2020
  | multikey
  | x25519KeyAgreementKey2019
  | x25519KeyAgreementKey2020
  | ed25519VerificationKey2018
  | ed25519VerificationKey2020
  | ecdsaSecp256k1VerificationKey2019
  | other

/-- The forms a private key is written in. -/
inductive KeyMaterialFormat
  | jwk (jwk : JWK)
  | multibase (privateKeyMultibase : List Char)
  | base58 (privateKeyBase58 : List Char)

/-- A key of a DID document with its bytes. -/
structure KeyMaterial where
  id : String
  type_ : KeyMaterialType
  format : KeyMaterialFormat
  privateBytes : Bytes
  publicBytes : Bytes
  keyType : KeyType

def encodeMultikey (crates : Crates) (codec : ℕ) (keyBytes : Bytes) : List Char :=
  crates.multibaseEncode (encodeBytes crates codec keyBytes)

/-- The name of a key type as it is debugged. -/
def debugKeyType : KeyType → String
  | .ed25519 => "Ed25519"
  | .x25519 => "X25519"
  | .p256 => "P256"
  | .p384 => "P384"
  | .p521 => "P521"
  | .secp256k1 => "Secp256k1"
  | .bls12381G2 => "Bls12381G2"
  | .mlDsa44 => "MlDsa44"
  | .mlDsa65 => "MlDsa65"
  | .mlDsa87 => "MlDsa87"
  | .slhDsaSha2_128s => "SlhDsaSha2_128s"
  | .unknown => "Unknown"

namespace KeyMaterial

/-! ## Making key material -/

def fromParts (keyType : KeyType) (privateBytes publicBytes : Bytes) (jwk : JWK) : KeyMaterial :=
  ⟨"", .jsonWebKey2020, .jwk jwk, privateBytes, publicBytes, keyType⟩

/-- The generation on an elliptic curve; the three curves are alike in this. -/
def generateOn (curve : Curve) (keyType : KeyType) (drawn : Bytes) (seed : Option Bytes) :
    Except KeyError KeyMaterial := do
  let kp ← (generateEc curve keyType drawn seed).mapError .crypto
  pure (fromParts kp.keyType kp.privateBytes kp.publicBytes kp.jwk)

def generateP256 (prims : Primitives) := generateOn prims.p256 .p256

def generateP384 (prims : Primitives) := generateOn prims.p384 .p384

def generateSecp256k1 (prims : Primitives) := generateOn prims.secp256k1 .secp256k1

def decodeBase64url (input : List Char) : Except KeyError Bytes :=
  (Base64.decode input).elim (throw (.key "Failed to decode base64url")) pure

/-- The bytes of the private member, which must be there. -/
def privateMember (d : Option (List Char)) : Except KeyError Bytes := do
  let d ← d.elim (throw (.key "Missing private key")) pure
  decodeBase64url d

def fromJwk (jwk : JWK) : Except KeyError KeyMaterial :=
  match jwk.params with
  | .ec params => do
    let x ← decodeBase64url params.x
    let y ← decodeBase64url params.y
    let privateBytes ← privateMember params.d
    let keyType ← (KeyType.tryFrom params.curve).mapError .crypto
    pure ⟨jwk.keyId.getD "", .jsonWebKey2020, .jwk jwk, privateBytes, x ++ y, keyType⟩
  | .okp params => do
    let privateBytes ← privateMember params.d
    let publicBytes ← decodeBase64url params.x
    let keyType ← (KeyType.tryFrom params.curve).mapError .crypto
    pure ⟨jwk.keyId.getD "", .jsonWebKey2020, .jwk jwk, privateBytes, publicBytes, keyType⟩

/-! ## The public multikey -/

def publicCodec : KeyType → ℕ
  | .ed25519 => Secrets.ed25519Pub
  | .x25519 => Secrets.x25519Pub
  | .p256 => Secrets.p256Pub
  | .p384 => Secrets.p384Pub
  | .secp256k1 => Secrets.secp256k1Pub
  | _ => 0

/-- The first byte of a compressed point: by the parity of the other coordinate. -/
def parity (last : UInt8) : UInt8 := if last.toNat % 2 = 0 then 2 else 3

/-- The compression of a point with coordinates of that width. -/
def compressPoint (width : ℕ) (publicBytes : Bytes) : Except KeyError Bytes :=
  if publicBytes.length < 2 * width + 1 then .error (.key "Invalid public key length")
  else .ok (parity (publicBytes.getD (2 * width) 0) :: (publicBytes.drop 1).take width)

def compressPublicKey (key : KeyMaterial) : Except KeyError Bytes :=
  match key.keyType with
  | .ed25519 | .x25519 => .ok key.publicBytes
  | .p256 | .secp256k1 => compressPoint 32 key.publicBytes
  | .p384 => compressPoint 48 key.publicBytes
  | _ => .error (.unsupportedKeyType (debugKeyType key.keyType))

def publicMultibase (crates : Crates) (key : KeyMaterial) : Except KeyError (List Char) := do
  let bytes ← key.compressPublicKey
  pure (encodeMultikey crates (publicCodec key.keyType) bytes)

/-! ## What is promised -/

/-- The width of a coordinate, for the curves whose points are compressed. -/
def coordinateWidth : KeyType → Option ℕ
  | .p256 | .secp256k1 => some 32
  | .p384 => some 48
  | _ => none

/-- The compressed point of two coordinates. -/
def compressed (x y : Bytes) : Bytes := parity (y.getLastD 0) :: x

def keyJwk (keyId : Option String) (curve : Curve) (key : KeyMaterial) : JWK :=
  ⟨keyId, .ec ⟨key.keyType.name, Base64.encode (curve.x key.privateBytes), Base64.encode (curve.y key.privateBytes),
    some (Base64.encode key.privateBytes)⟩⟩

/-- A generated key and the key of its JWK have the same public multikey, that of the compressed point. -/
def LoadsAsGenerated (crates : Crates) (keyId : Option String) (curve : Curve) (key : KeyMaterial) : Prop :=
  ∃ loaded text, fromJwk (keyJwk keyId curve key) = .ok loaded ∧ loaded.publicMultibase crates = .ok text ∧
    key.publicMultibase crates = .ok text ∧
    text = encodeMultikey crates (publicCodec key.keyType)
      (compressed (curve.x key.privateBytes) (curve.y key.privateBytes))

/-! ## What is done -/

section

variable {crates : Crates} {curve : Curve} {keyType : KeyType} {width : ℕ} {drawn : Bytes} {seed : Option Bytes}
  {key : KeyMaterial} {x y : Bytes}

theorem compressPublicKey_of_width (hwidth : coordinateWidth key.keyType = some width) :
    key.compressPublicKey = compressPoint width key.publicBytes := by
  unfold compressPublicKey
  unfold coordinateWidth at hwidth
  split at hwidth
  · rename_i htype
    cases hwidth
    rw [htype]
  · rename_i htype
    cases hwidth
    rw [htype]
  · rename_i htype
    cases hwidth
    rw [htype]
  · cases hwidth

theorem compressPoint_encoded (hx : x.length = width) (hy : y.length = width) (hpos : 0 < width) :
    compressPoint width (4 :: (x ++ y)) = .ok (compressed x y) := by
  have hlength : ¬(4 :: (x ++ y)).length < 2 * width + 1 := by
    rw [length_cons, length_append]
    omega
  have hlast : (4 :: (x ++ y)).getD (2 * width) 0 = y.getLastD 0 := by
    -- the last byte of the encoding is the last one of the second coordinate
    obtain ⟨n, rfl⟩ : ∃ n, width = n + 1 := ⟨width - 1, by omega⟩
    have hindex : 2 * (n + 1) = (n + 1 + n) + 1 := by omega
    rw [hindex, getD_cons_succ, getD_append_right _ _ _ _ (by omega), hx, Nat.add_sub_cancel_left,
      getLastD_eq_getLast?, getLast?_eq_getElem?, hy]
    rfl
  rw [compressPoint, if_neg hlength, hlast, drop_one, tail_cons, take_left' hx]
  rfl

theorem compressPoint_raw (hx : x.length = width) (hy : y.length = width) :
    compressPoint width (x ++ y) = .error (.key "Invalid public key length") := by
  refine if_pos ?_
  rw [length_append]
  omega

theorem generateOn_eq_ok (h : generateOn curve keyType drawn seed = .ok key) :
    key.keyType = keyType ∧ key.publicBytes = 4 :: (curve.x key.privateBytes ++ curve.y key.privateBytes) ∧
      key.format = .jwk (keyJwk none curve key) := by
  unfold generateOn generateEc at h
  simp only [bind_eq_ok_iff, mapError_eq_ok_iff, pure_eq_ok_iff] at h
  obtain ⟨kp, ⟨privateBytes, -, rfl⟩, rfl⟩ := h
  exact ⟨rfl, rfl, rfl⟩

theorem publicMultibase_generated (hwidth : coordinateWidth keyType = some width)
    (h : generateOn curve keyType drawn seed = .ok key) (hx : (curve.x key.privateBytes).length = width)
    (hy : (curve.y key.privateBytes).length = width) :
    key.publicMultibase crates = .ok (encodeMultikey crates (publicCodec keyType)
      (compressed (curve.x key.privateBytes) (curve.y key.privateBytes))) := by
  obtain ⟨rfl, hpublic, -⟩ := generateOn_eq_ok h
  have hpos : 0 < width := by
    unfold coordinateWidth at hwidth
    split at hwidth
    · cases hwidth
      decide
    · cases hwidth
      decide
    · cases hwidth
      decide
    · cases hwidth
  unfold publicMultibase
  rw [compressPublicKey_of_width hwidth, hpublic, compressPoint_encoded hx hy hpos]
  rfl

theorem fromJwk_keyJwk (keyId : Option String) (htype : key.keyType ≠ .unknown) :
    fromJwk (keyJwk keyId curve key) = .ok ⟨keyId.getD "", .jsonWebKey2020, .jwk (keyJwk keyId curve key),
      key.privateBytes, curve.x key.privateBytes ++ curve.y key.privateBytes, key.keyType⟩ := by
  have hdecode : ∀ bytes, decodeBase64url (Base64.encode bytes) = .ok bytes := by
    intro bytes
    rw [decodeBase64url, Base64.decode_encode]
    rfl
  have hprivate : privateMember (some (Base64.encode key.privateBytes)) = .ok key.privateBytes :=
    bind_eq_ok_iff.2 ⟨_, rfl, hdecode key.privateBytes⟩
  refine bind_eq_ok_iff.2 ⟨_, hdecode _, bind_eq_ok_iff.2 ⟨_, hdecode _, bind_eq_ok_iff.2 ⟨_, hprivate, ?_⟩⟩⟩
  exact bind_eq_ok_iff.2 ⟨_, mapError_eq_ok_iff.2 (KeyType.tryFrom_name htype), rfl⟩

theorem publicMultibase_loaded (hwidth : coordinateWidth key.keyType = some width)
    (hx : (curve.x key.privateBytes).length = width) (hy : (curve.y key.privateBytes).length = width)
    {loaded : KeyMaterial} {keyId : Option String} (h : fromJwk (keyJwk keyId curve key) = .ok loaded) :
    loaded.publicMultibase crates = .error (.key "Invalid public key length") := by
  have htype : key.keyType ≠ .unknown := by
    intro heq
    rw [heq] at hwidth
    cases hwidth
  cases (fromJwk_keyJwk keyId htype).symm.trans h
  have hsame : coordinateWidth (KeyMaterial.keyType ⟨keyId.getD "", .jsonWebKey2020, .jwk (keyJwk keyId curve key),
      key.privateBytes, curve.x key.privateBytes ++ curve.y key.privateBytes, key.keyType⟩) = some width := hwidth
  unfold publicMultibase
  rw [compressPublicKey_of_width hsame, compressPoint_raw hx hy]
  rfl

/-- No generated key is loaded from its JWK as it was generated. -/
theorem not_loadsAsGenerated (hwidth : coordinateWidth keyType = some width)
    (h : generateOn curve keyType drawn seed = .ok key) (hx : (curve.x key.privateBytes).length = width)
    (hy : (curve.y key.privateBytes).length = width) (keyId : Option String) :
    ¬LoadsAsGenerated crates keyId curve key := by
  rintro ⟨loaded, text, hloaded, htext, -⟩
  obtain ⟨rfl, -⟩ := generateOn_eq_ok h
  rw [publicMultibase_loaded hwidth hx hy hloaded] at htext
  cases htext

end

/-! ## A known key -/

def knownKey : KeyMaterial :=
  ⟨"", .jsonWebKey2020,
    .jwk ⟨none, .ec ⟨"P-256", Base64.encode knownX, Base64.encode knownY, some (Base64.encode knownScalar)⟩⟩,
    knownScalar, 4 :: (knownX ++ knownY), .p256⟩

theorem knownKey_generated : generateP256 knownCrates.keys [] (some knownScalar) = .ok knownKey := rfl

theorem knownKey_not_loadsAsGenerated : ¬LoadsAsGenerated knownCrates none knownCrates.keys.p256 knownKey := by
  have hwidth : coordinateWidth .p256 = some 32 := rfl
  exact not_loadsAsGenerated hwidth knownKey_generated rfl rfl none

/-- The key is generated with a public multikey, and loaded from its own JWK without one. -/
theorem knownKey_lost : ∃ loaded, generateP256 knownCrates.keys [] (some knownScalar) = .ok knownKey ∧
    knownKey.publicMultibase knownCrates = .ok (encodeMultikey knownCrates 0x1200 (3 :: knownX)) ∧
    fromJwk (keyJwk none knownCrates.keys.p256 knownKey) = .ok loaded ∧
    loaded.publicBytes = knownX ++ knownY ∧
    loaded.publicMultibase knownCrates = .error (.key "Invalid public key length") ∧
    ¬LoadsAsGenerated knownCrates none knownCrates.keys.p256 knownKey := by
  have hwidth : coordinateWidth .p256 = some 32 := rfl
  have htype : knownKey.keyType ≠ .unknown := by decide
  have hloaded : fromJwk (keyJwk none knownCrates.keys.p256 knownKey) = _ := fromJwk_keyJwk none htype
  have hlost : KeyMaterial.publicMultibase knownCrates _ = _ := publicMultibase_loaded hwidth rfl rfl hloaded
  refine ⟨_, knownKey_generated, publicMultibase_generated hwidth knownKey_generated rfl rfl, hloaded, rfl,
    hlost, ?_⟩
  rintro ⟨other, text, hother, htext, -⟩
  cases hloaded.symm.trans hother
  rw [hlost] at htext
  cases htext

end KeyMaterial

end AffinidiTdk.Did
