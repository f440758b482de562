/-
Saving and loading a secret. Generation keeps the uncompressed form of an elliptic curve's point as the public
bytes, with the tag byte in front; loading puts the two coordinates together without it. So the secrets that
come back as they were saved are those of the octet keys.
-/
import AffinidiTdk.Secrets.Secret

namespace AffinidiTdk.Secrets

open Fallible Secret
open AffinidiTdk.Crypto

variable {crates : Crates} {secret loaded : Secret}

/-! ## How secrets come about -/

/-- The secrets that the generate functions and `fromMultibase` return, under any later id. -/
inductive Produced (crates : Crates) : Secret → Prop
  | ed25519 (drawn : Secret.Drawn) (kid : Option String) (seed : Option Bytes) :
      Produced crates (Secret.generateEd25519 crates drawn kid seed)
  | x25519 {drawn : Secret.Drawn} {kid : Option String} {seed : Option Bytes} {secret : Secret}
      (h : Secret.generateX25519 crates drawn kid seed = .ok secret) : Produced crates secret
  | p256 {drawn : Secret.Drawn} {kid : Option String} {key : Option Bytes} {secret : Secret}
      (h : Secret.generateP256 crates drawn kid key = .ok secret) : Produced crates secret
  | p384 {drawn : Secret.Drawn} {kid : Option String} {key : Option Bytes} {secret : Secret}
      (h : Secret.generateP384 crates drawn kid key = .ok secret) : Produced crates secret
  | p521 {drawn : Secret.Drawn} {kid : Option String} {key : Option Bytes} {secret : Secret}
      (h : Secret.generateP521 crates drawn kid key = .ok secret) : Produced crates secret
  | secp256k1 {drawn : Secret.Drawn} {kid : Option String} {key : Option Bytes} {secret : Secret}
      (h : Secret.generateSecp256k1 crates drawn kid key = .ok secret) : Produced crates secret
  | multibase {drawn : Secret.Drawn} {text : List Char} {kid : Option String} {secret : Secret}
      (h : Secret.fromMultibase crates drawn text kid = .ok secret) : Produced crates secret
  | renamed {secret : Secret} (h : Produced crates secret) (id : String) : Produced crates { secret with id := id }

/-- The families of keys with a JWK. -/
def jwkFamilies : List KeyType := [.ed25519, .x25519, .p256, .p384, .p521, .secp256k1]

/-- The material of a produced secret in terms of its bytes, by the family of its key. -/
inductive Keyed (secret : Secret) : Prop
  | octet (family : secret.keyType = .ed25519 ∨ secret.keyType = .x25519)
      (material : secret.secretMaterial = .jwk ⟨none, .okp ⟨secret.keyType.name, Base64.encode secret.publicBytes,
        some (Base64.encode secret.privateBytes)⟩⟩)
  | curve (family : secret.keyType ∈ [KeyType.p256, .p384, .p521, .secp256k1]) (x y : Bytes)
      (point : secret.publicBytes = 4 :: (x ++ y))
      (material : secret.secretMaterial = .jwk ⟨none, .ec ⟨secret.keyType.name, Base64.encode x, Base64.encode y,
        some (Base64.encode secret.privateBytes)⟩⟩)
  | lattice (family : secret.keyType ∈ [KeyType.mlDsa44, .mlDsa65, .mlDsa87])

theorem keyed_generateEd25519 (drawn : Drawn) (kid : Option String) (seed : Option Bytes) :
    Keyed (generateEd25519 crates drawn kid seed) :=
  .octet (.inl rfl) rfl

variable {drawn : Secret.Drawn} {kid : Option String}

theorem keyed_generateX25519 {seed : Option Bytes} (h : generateX25519 crates drawn kid seed = .ok secret) :
    Keyed secret := by
  cases h
  exact .octet (.inr rfl) rfl

variable {keyType : KeyType}

theorem keyed_generateOn {curve : Curve} {key : Option Bytes}
    (hfamily : keyType ∈ [KeyType.p256, .p384, .p521, .secp256k1])
    (h : generateOn curve keyType drawn kid key = .ok secret) : Keyed secret := by
  obtain ⟨keypair, hpair, h⟩ := bind_eq_ok_iff.1 h
  obtain ⟨scalar, -, hpair⟩ := bind_eq_ok_iff.1 (mapError_eq_ok_iff.1 hpair)
  cases hpair
  cases h
  exact .curve hfamily (curve.x scalar) (curve.y scalar) rfl rfl

theorem ofLength_eq_ok {label : String} {data : Bytes} {make : Except SecretsResolverError Secret}
    (h : ofLength label data make = .ok secret) : make = .ok secret :=
  (ite_throw_eq_ok_iff.1 h).2

theorem keyed_fromMultibase {text : List Char} (h : fromMultibase crates drawn text kid = .ok secret) :
    Keyed secret := by
  obtain ⟨raw, -, h⟩ := bind_eq_ok_iff.1 h
  obtain ⟨⟨codec, data⟩, -, h⟩ := bind_eq_ok_iff.1 h
  dsimp only at h
  split_ifs at h
  · cases ofLength_eq_ok h
    exact keyed_generateEd25519 drawn kid (some data)
  · exact keyed_generateX25519 (ofLength_eq_ok h)
  · exact keyed_generateOn (by decide) (ofLength_eq_ok h)
  · exact keyed_generateOn (by decide) h
  · exact keyed_generateOn (by decide) h
  · exact keyed_generateOn (by decide) h
  · cases ofLength_eq_ok h
    exact .lattice (by simp [generateMlDsa])
  · cases ofLength_eq_ok h
    exact .lattice (by simp [generateMlDsa])
  · cases ofLength_eq_ok h
    exact .lattice (by simp [generateMlDsa])

theorem Keyed.renamed (h : Keyed secret) (id : String) : Keyed { secret with id := id } := by
  cases h with
  | octet family material => exact .octet family material
  | curve family x y point material => exact .curve family x y point material
  | lattice family => exact .lattice family

theorem Produced.keyed (h : Produced crates secret) : Keyed secret := by
  induction h with
  | ed25519 drawn kid seed => exact keyed_generateEd25519 drawn kid seed
  | x25519 h => exact keyed_generateX25519 h
  | p256 h | p384 h | p521 h | secp256k1 h => exact keyed_generateOn (by decide) h
  | multibase h => exact keyed_fromMultibase h
  | renamed _ id ih => exact ih.renamed id

/-! ## What is read back -/

theorem convertToRaw_encode (bytes : Bytes) : convertToRaw (Base64.encode bytes) = .ok bytes := by
  rw [convertToRaw, Base64.decode_encode]
  rfl

theorem privateRaw_encode (bytes : Bytes) : privateRaw (some (Base64.encode bytes)) = .ok bytes :=
  convertToRaw_encode bytes

theorem fromJwk_okp (hkey : keyType ≠ .unknown) (publicBytes privateBytes : Bytes) :
    let jwk : JWK := ⟨none, .okp ⟨keyType.name, Base64.encode publicBytes, some (Base64.encode privateBytes)⟩⟩
    fromJwk jwk = .ok ⟨"", .jsonWebKey2020, .jwk jwk, privateBytes, publicBytes, keyType⟩ := by
  intro jwk
  refine bind_eq_ok_iff.2 ⟨privateBytes, privateRaw_encode _, ?_⟩
  refine bind_eq_ok_iff.2 ⟨publicBytes, convertToRaw_encode _, ?_⟩
  refine bind_eq_ok_iff.2 ⟨keyType, mapError_eq_ok_iff.2 (KeyType.tryFrom_name hkey), rfl⟩

theorem fromJwk_ec (hkey : keyType ≠ .unknown) (x y privateBytes : Bytes) :
    let jwk : JWK := ⟨none, .ec ⟨keyType.name, Base64.encode x, Base64.encode y, some (Base64.encode privateBytes)⟩⟩
    fromJwk jwk = .ok ⟨"", .jsonWebKey2020, .jwk jwk, privateBytes, x ++ y, keyType⟩ := by
  intro jwk
  refine bind_eq_ok_iff.2 ⟨x, convertToRaw_encode _, ?_⟩
  refine bind_eq_ok_iff.2 ⟨y, convertToRaw_encode _, ?_⟩
  refine bind_eq_ok_iff.2 ⟨privateBytes, privateRaw_encode _, ?_⟩
  refine bind_eq_ok_iff.2 ⟨keyType, mapError_eq_ok_iff.2 (KeyType.tryFrom_name hkey), rfl⟩

/-- The secret is loaded from its saved form as it was, and gives the same multikeys. -/
structure LoadedAs (crates : Crates) (secret loaded : Secret) : Prop where
  id : loaded.id = secret.id
  type_ : loaded.type_ = secret.type_
  keyType : loaded.keyType = secret.keyType
  privateBytes : loaded.privateBytes = secret.privateBytes
  publicBytes : loaded.publicBytes = secret.publicBytes
  publicMultikey : loaded.getPublicKeymultibase crates = secret.getPublicKeymultibase crates
  privateMultikey : loaded.getPrivateKeymultibase crates = secret.getPrivateKeymultibase crates

def SurvivesSaveAndLoad (crates : Crates) (secret : Secret) : Prop :=
  ∀ drawn, ∃ loaded, Secret.tryFrom crates drawn secret.serialize = .ok loaded ∧ LoadedAs crates secret loaded

/-- **Saving and loading**: of the secrets with a JWK, those that survive are the ones whose key is an Ed25519
or X25519 key. -/
theorem survivesSaveAndLoad_iff (h : Produced crates secret) (hfamily : secret.keyType ∈ jwkFamilies) :
    SurvivesSaveAndLoad crates secret ↔ secret.keyType = .ed25519 ∨ secret.keyType = .x25519 := by
  have hknown : secret.keyType ≠ .unknown := fun hunknown => by
    rw [hunknown] at hfamily
    exact absurd hfamily (by decide)
  cases h.keyed with
  | octet family material =>
    refine iff_of_true (fun drawn => ?_) family
    have hload : tryFrom crates drawn secret.serialize = .ok secret := by
      obtain ⟨id, type_, secretMaterial, privateBytes, publicBytes, keyType⟩ := secret
      dsimp only at material
      subst material
      exact bind_eq_ok_iff.2 ⟨_, fromJwk_okp hknown publicBytes privateBytes, rfl⟩
    exact ⟨secret, hload, rfl, rfl, rfl, rfl, rfl, rfl, rfl⟩
  | curve family x y point material =>
    have hcurve : ¬(secret.keyType = .ed25519 ∨ secret.keyType = .x25519) := by
      rintro (heq | heq) <;> rw [heq] at family <;> exact absurd family (by decide)
    refine iff_of_false (fun hsurvives => ?_) hcurve
    obtain ⟨loaded, hload, hsame⟩ := hsurvives ⟨"", []⟩
    have hbytes : loaded.publicBytes = x ++ y := by
      obtain ⟨id, type_, secretMaterial, privateBytes, publicBytes, keyType⟩ := secret
      dsimp only at material
      subst material
      obtain ⟨read, hread, hload⟩ := bind_eq_ok_iff.1 hload
      cases (fromJwk_ec hknown x y privateBytes).symm.trans hread
      cases hload
      rfl
    -- the tag byte is lost
    have hlength := congrArg List.length (hbytes.symm.trans (hsame.publicBytes.trans point))
    rw [List.length_cons] at hlength
    omega
  | lattice family =>
    refine absurd hfamily fun hmem => ?_
    simp only [jwkFamilies, List.mem_cons, List.not_mem_nil, or_false] at hmem family
    rcases hmem with h | h | h | h | h | h <;> rcases family with h' | h' | h' <;> cases h.symm.trans h'

/-! ## A P-256 key -/

def knownX : Bytes :=
  [58, 171, 81, 242, 219, 171, 209, 181, 233, 221, 218, 111, 30, 15, 18, 225, 31, 219, 140, 81, 5, 24, 23, 239, 225,
    98, 152, 83, 170, 59, 150, 87]

def knownY : Bytes :=
  [156, 240, 83, 51, 114, 189, 161, 138, 184, 99, 38, 163, 5, 190, 193, 76, 160, 142, 100, 21, 137, 34, 171, 215,
    208, 38, 232, 145, 221, 55, 64, 175]

def knownScalar : Bytes :=
  [208, 57, 254, 10, 175, 123, 195, 201, 85, 127, 65, 94, 234, 148, 26, 202, 115, 60, 161, 179, 152, 106, 139,
    131, 165, 17, 212, 66, 83, 125, 153, 124]

/-- Curves that know one P-256 key, and the codecs of multikeys as plain concatenation. -/
def knownCrates : Crates where
  keys := ⟨⟨.ok, fun _ => knownX, fun _ => knownY⟩, ⟨.ok, id, id⟩, ⟨.ok, id, id⟩, ⟨.ok, id, id⟩, id, id, id, id⟩
  mlDsaPublic _ := id
  multibaseDecode _ := .error "unknown base"
  multibaseEncode _ := ['z']
  varintDecode _ := .error "not enough bytes"
  varintEncode codec := [codec.toUInt8]

def knownSecret : Secret :=
  ⟨"#key-1", .jsonWebKey2020,
    .jwk ⟨none, .ec ⟨"P-256", Base64.encode knownX, Base64.encode knownY, some (Base64.encode knownScalar)⟩⟩,
    knownScalar, 4 :: (knownX ++ knownY), .p256⟩

def octetSecret : Secret := Secret.generateEd25519 knownCrates ⟨"", []⟩ (some "#key-1") (some knownScalar)

theorem octetSecret_survives : SurvivesSaveAndLoad knownCrates octetSecret :=
  (survivesSaveAndLoad_iff (.ed25519 ⟨"", []⟩ (some "#key-1") (some knownScalar)) (.head _)).2 (.inl rfl)

theorem knownSecret_generated :
    generateP256 knownCrates ⟨"", []⟩ (some "#key-1") (some knownScalar) = .ok knownSecret := rfl

/-- The P-256 secret is loaded with other public bytes, of which no public multikey can be made. -/
theorem knownSecret_lost :
    Produced knownCrates knownSecret ∧ ¬SurvivesSaveAndLoad knownCrates knownSecret ∧
      ∃ loaded, tryFrom knownCrates ⟨"", []⟩ knownSecret.serialize = .ok loaded ∧
        loaded.publicBytes = knownX ++ knownY ∧ knownSecret.getPublicKeymultibase knownCrates = .ok ['z'] ∧
        loaded.getPublicKeymultibase knownCrates =
          .error (.keyError "public_bytes too short to compress: expected >= 65 bytes, got 64") := by
  have hload (drawn : Drawn) : tryFrom knownCrates drawn knownSecret.serialize =
      .ok { knownSecret with publicBytes := knownX ++ knownY } := by
    have hknown : KeyType.p256 ≠ .unknown := by decide
    exact bind_eq_ok_iff.2 ⟨_, fromJwk_ec hknown knownX knownY knownScalar, rfl⟩
  refine ⟨.p256 knownSecret_generated, fun hsurvives => ?_, _, hload _, rfl, rfl, by decide +kernel⟩
  obtain ⟨loaded, hloaded, hsame⟩ := hsurvives ⟨"", []⟩
  cases (hload _).symm.trans hloaded
  exact absurd hsame.publicBytes (by decide)

end AffinidiTdk.Secrets
