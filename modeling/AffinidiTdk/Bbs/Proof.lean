/-
BBS proof verification (`affinidi-bbs`, `proof.rs` with what it uses of `signature.rs`,
`generators.rs`, `hash.rs` and `types.rs`), over an abstract pairing. The curve arithmetic, the
octet codecs and the hash functions are parameters: `Suite` collects what is fixed for a
ciphersuite, and `hash_to_scalar` is passed on its own, since the Fiat–Shamir challenge is the
only place where an attacker meets it.
-/
import AffinidiTdk.Lib.Bilinear

namespace AffinidiTdk.Bbs

open Bilinear

/-! ## Errors and ciphersuites -/

/-- The error kinds of the crate. -/
inductive BbsError
  | invalidKey (msg : String)
  | invalidSignature (msg : String)
  | invalidProof (msg : String)
  | invalidIndex (msg : String)
  | deserialization (msg : String)
  | crypto (msg : String)
  | unsupported (msg : String)
  deriving DecidableEq

/-- The two hash suites over BLS12-381. -/
inductive Ciphersuite
  | bls12381Sha256
  | bls12381Shake256

/-- The octets of an ASCII byte-string literal. -/
def ascii (s : String) : List UInt8 := s.toList.map fun c => UInt8.ofNat c.toNat

/-- `(n as u64).to_be_bytes()`. -/
def u64BeBytes (n : ℕ) : List UInt8 := (List.range 8).map fun i => UInt8.ofNat (n / 256 ^ (7 - i))

namespace Ciphersuite

def ensureSupported : Ciphersuite → Except BbsError Unit
  | bls12381Sha256 => .ok ()
  | bls12381Shake256 => .error (.unsupported ("BLS12-381-SHAKE-256 ciphersuite is not implemented (the hash " ++
        "layer is SHA-256/XMD only); use Ciphersuite::Bls12381Sha256"))

def id : Ciphersuite → String
  | bls12381Sha256 => "BBS_BLS12381G1_XMD:SHA-256_SSWU_RO_"
  | bls12381Shake256 => "BBS_BLS12381G1_XOF:SHAKE-256_SSWU_RO_"

def apiId (cs : Ciphersuite) : List UInt8 := ascii cs.id ++ ascii "H2G_HM2S_"

def octetScalarLength : Ciphersuite → ℕ
  | bls12381Sha256 => 32
  | bls12381Shake256 => 64

def expandLen (_ : Ciphersuite) : ℕ := 48

def octetPointLength (_ : Ciphersuite) : ℕ := 48

end Ciphersuite

/-! ## What lies outside the crate -/

/-- The octet codecs of points and scalars: fixed lengths, and decoding accepts the encoding of
every point, the identity included. -/
structure Codec (p : ℕ) (G₁ : Type) where
  pointToBytes : G₁ → List UInt8
  pointFromBytes : List UInt8 → Option G₁
  scalarToBytes : ZMod p → List UInt8
  scalarFromBytes : List UInt8 → Option (ZMod p)
  point_length : ∀ a, (pointToBytes a).length = 48
  scalar_length : ∀ s, (scalarToBytes s).length = 32
  point_decode : ∀ a, pointFromBytes (pointToBytes a) = some a
  scalar_decode : ∀ s, scalarFromBytes (scalarToBytes s) = some s

/-- `hash_to_scalar` (`data`, `dst`, ciphersuite), an arbitrary function. -/
abbrev HashToScalar (p : ℕ) := List UInt8 → List UInt8 → Ciphersuite → Except BbsError (ZMod p)

variable {p : ℕ} [Fact p.Prime] {G₁ G₂ GT : Type} [AddCommGroup G₁] [Module (ZMod p) G₁]
  [AddCommGroup G₂] [Module (ZMod p) G₂] [AddCommGroup GT] [Module (ZMod p) GT]

/-- The group, the codecs, the constant `P1` and the hash functions into octets and points. -/
structure Suite (p : ℕ) [Fact p.Prime] (G₁ G₂ GT : Type) [AddCommGroup G₁] [Module (ZMod p) G₁]
    [AddCommGroup G₂] [Module (ZMod p) G₂] [AddCommGroup GT] [Module (ZMod p) GT] where
  group : Pairing p G₁ G₂ GT
  codec : Codec p G₁
  p1Generator : G₁
  publicKeyToBytes : G₂ → List UInt8
  expandMsgXmd : List UInt8 → List UInt8 → ℕ → List UInt8
  hashToCurve : List UInt8 → List UInt8 → G₁

section Signature

variable (S : Suite p G₁ G₂ GT)

/-! ## Signatures -/

/-- `B = P1 + Q1*domain + H1*msg1 + ... + HL*msgL`. -/
def computeB (q1 : G₁) (domain : ZMod p) (hGenerators : List G₁) (msgScalars : List (ZMod p)) : G₁ :=
  msgScalars.zipIdx.foldl (fun b m => b + m.1 • hGenerators.getD m.2 0) (S.p1Generator + domain • q1)

/-- A signature `(A, e)`. -/
structure Signature (p : ℕ) (G₁ : Type) where
  a : G₁
  e : ZMod p
  deriving DecidableEq

/-- The verification equation `e(A, W + BP2*e) * e(-B, BP2) == 1_GT` for a precomputed `B`. -/
def verifySignaturePairing [DecidableEq GT] (pk : G₂) (signature : Signature p G₁) (b : G₁) : Bool :=
  S.group.pair signature.a (pk + signature.e • S.group.gen) + S.group.pair (-b) S.group.gen = 0

/-! ## Generators, domain and message scalars -/

def maxGenerators : ℕ := 1024

/-- The generator loop: `v` is re-expanded with the counter, each `v` hashed to the curve. -/
def generatorLoop (seedDst generatorDst : List UInt8) (expandLen : ℕ) :
    List ℕ → List UInt8 → List G₁
  | [], _ => []
  | i :: rest, v =>
    let v' := S.expandMsgXmd (v ++ u64BeBytes i) seedDst expandLen
    S.hashToCurve v' generatorDst :: generatorLoop seedDst generatorDst expandLen rest v'

def createGeneratorsWithApiId (count : ℕ) (apiId : List UInt8) (cs : Ciphersuite) :
    Except BbsError (List G₁) := do
  cs.ensureSupported
  if count > maxGenerators then
    throw (.invalidProof s!"generator/message count {count} exceeds maximum {maxGenerators}")
  let seedDst := apiId ++ ascii "SIG_GENERATOR_SEED_"
  let generatorDst := apiId ++ ascii "SIG_GENERATOR_DST_"
  let generatorSeed := apiId ++ ascii "MESSAGE_GENERATOR_SEED"
  let v := S.expandMsgXmd generatorSeed seedDst cs.expandLen
  return generatorLoop S seedDst generatorDst cs.expandLen (List.range' 1 count) v

def createGenerators (count : ℕ) (cs : Ciphersuite) : Except BbsError (List G₁) :=
  createGeneratorsWithApiId S count cs.apiId cs

def calculateDomainWithApiId (hash : HashToScalar p) (pk : G₂) (q1 : G₁) (generators : List G₁)
    (header apiId : List UInt8) (cs : Ciphersuite) : Except BbsError (ZMod p) :=
  let data := S.publicKeyToBytes pk ++ u64BeBytes generators.length ++ S.codec.pointToBytes q1 ++
    generators.flatMap S.codec.pointToBytes ++ apiId ++ u64BeBytes header.length ++ header
  hash data (apiId ++ ascii "H2S_") cs

def calculateDomain (hash : HashToScalar p) (pk : G₂) (q1 : G₁) (generators : List G₁)
    (header : List UInt8) (cs : Ciphersuite) : Except BbsError (ZMod p) :=
  calculateDomainWithApiId S hash pk q1 generators header cs.apiId cs

def messagesToScalarsWithApiId (hash : HashToScalar p) (messages : List (List UInt8))
    (apiId : List UInt8) (cs : Ciphersuite) : Except BbsError (List (ZMod p)) :=
  messages.mapM fun msg => hash msg (apiId ++ ascii "MAP_MSG_TO_SCALAR_AS_HASH_") cs

def messagesToScalars (hash : HashToScalar p) (messages : List (List UInt8)) (cs : Ciphersuite) :
    Except BbsError (List (ZMod p)) :=
  messagesToScalarsWithApiId hash messages cs.apiId cs

/-- `OP = hash_to_curve_g1(context_id)` under the ciphersuite's `api_id`. -/
def calculatePseudonymGenerator (contextId : List UInt8) (cs : Ciphersuite) : G₁ :=
  S.hashToCurve contextId cs.apiId

def validatePublicKey [DecidableEq G₂] (pk : G₂) : Except BbsError Unit :=
  if pk = 0 then throw (.invalidKey "public key is the identity point") else pure ()

end Signature

/-! ## Deserializing a proof -/

section Verify

variable (S : Suite p G₁ G₂ GT)

/-- The components of a serialized proof. -/
structure ProofParts (p : ℕ) (G₁ : Type) where
  abar : G₁
  bbar : G₁
  d : G₁
  eHat : ZMod p
  r1Hat : ZMod p
  r3Hat : ZMod p
  mHats : List (ZMod p)
  challenge : ZMod p
  deriving DecidableEq

/-- The octets of a proof, as the last step of proof generation writes them. -/
def serializeProof (P : ProofParts p G₁) : List UInt8 :=
  S.codec.pointToBytes P.abar ++ S.codec.pointToBytes P.bbar ++ S.codec.pointToBytes P.d ++
    S.codec.scalarToBytes P.eHat ++ S.codec.scalarToBytes P.r1Hat ++ S.codec.scalarToBytes P.r3Hat ++
    P.mHats.flatMap S.codec.scalarToBytes ++ S.codec.scalarToBytes P.challenge

/-- One of the three points, at a fixed offset of a buffer long enough to hold it. -/
def readPoint (proofBytes : List UInt8) (offset : ℕ) (err : String) : Except BbsError G₁ :=
  match S.codec.pointFromBytes ((proofBytes.drop offset).take 48) with
  | some a => .ok a
  | none => .error (.invalidProof err)

/-- A scalar at `offset`, with the offset after it. -/
def readScalar (buf : List UInt8) (offset : ℕ) : Except BbsError (ZMod p × ℕ) :=
  if offset + 32 > buf.length then .error (.invalidProof "proof too short for scalar")
  else match S.codec.scalarFromBytes ((buf.drop offset).take 32) with
    | some s => .ok (s, offset + 32)
    | none => .error (.deserialization "invalid scalar in proof")

/-- The `m^` loop: `u` scalars in a row. -/
def readScalars (buf : List UInt8) : ℕ → ℕ → Except BbsError (List (ZMod p) × ℕ)
  | 0, offset => .ok ([], offset)
  | u + 1, offset => do
    let (s, offset) ← readScalar S buf offset
    let (rest, offset) ← readScalars buf u offset
    return (s :: rest, offset)

def deserializeProof (proofBytes : List UInt8) (u : ℕ) : Except BbsError (ProofParts p G₁) := do
  let abar ← readPoint S proofBytes 0 "invalid Abar point"
  let bbar ← readPoint S proofBytes 48 "invalid Bbar point"
  let d ← readPoint S proofBytes 96 "invalid D point"
  let (eHat, offset) ← readScalar S proofBytes 144
  let (r1Hat, offset) ← readScalar S proofBytes offset
  let (r3Hat, offset) ← readScalar S proofBytes offset
  let (mHats, offset) ← readScalars S proofBytes u offset
  let (challenge, _) ← readScalar S proofBytes offset
  if challenge = 0 then throw (.invalidProof "zero challenge")
  return ⟨abar, bbar, d, eHat, r1Hat, r3Hat, mHats, challenge⟩

/-- The index loop: every index below `l` and none seen before. -/
def checkIndexes (l : ℕ) : List ℕ → List ℕ → Except BbsError Unit
  | [], _ => .ok ()
  | idx :: rest, seen =>
    if idx ≥ l then .error (.invalidIndex s!"disclosed index {idx} >= message count {l}")
    else if idx ∈ seen then .error (.invalidIndex s!"duplicate disclosed index: {idx}")
    else checkIndexes l rest (idx :: seen)

def undisclosedIndexes (l : ℕ) (disclosedIndexes : List ℕ) : List ℕ :=
  (List.range l).filter fun i => !disclosedIndexes.contains i

/-! ## The recomputed commitments -/

/-- `T1 = Abar * e^ + D * r1^ + Bbar * challenge`. -/
def recomputeT1 (P : ProofParts p G₁) : G₁ := P.eHat • P.abar + P.r1Hat • P.d + P.challenge • P.bbar

/-- `Bv = P1 + Q1*domain + sum(H_i*msg_i for disclosed)`. -/
def recomputeBv (q1 : G₁) (hGenerators : List G₁) (disclosedIndexes : List ℕ)
    (disclosedScalars : List (ZMod p)) (domain : ZMod p) : G₁ :=
  disclosedIndexes.zipIdx.foldl (fun bv i => bv + disclosedScalars.getD i.2 0 • hGenerators.getD i.1 0)
    (S.p1Generator + domain • q1)

/-- `T2 = Bv*c + D*r3^ + sum(H_j*m^_j for undisclosed)`. -/
def recomputeT2 (bv : G₁) (hGenerators : List G₁) (undisclosed : List ℕ) (P : ProofParts p G₁) : G₁ :=
  undisclosed.zipIdx.foldl (fun t2 j => t2 + P.mHats.getD j.2 0 • hGenerators.getD j.1 0)
    (P.challenge • bv + P.r3Hat • P.d)

/-- The pseudonym step: the triple `(Pseudonym, OP, Uv)`, or `none` where the verifier returns
`Ok(false)` on an identity point. -/
def nymTerms [DecidableEq G₁] (l u : ℕ) (disclosedIndexes : List ℕ) (P : ProofParts p G₁) :
    Option (G₁ × G₁) → Except BbsError (Option (Option (G₁ × G₁ × G₁)))
  | none => .ok (some none)
  | some (op, pseudonym) =>
    if l = 0 ∨ u = 0 then
      .error (.invalidProof "pseudonym proof requires an undisclosed nym_secret")
    else if disclosedIndexes.contains (l - 1) then
      .error (.invalidIndex "nym_secret (last message) must not be disclosed")
    else if op = 0 ∨ pseudonym = 0 then .ok none
    else
      let uv := P.mHats.getD (u - 1) 0 • op - P.challenge • pseudonym
      if uv = 0 then .ok none else .ok (some (some (pseudonym, op, uv)))

/-! ## The challenge -/

/-- The octets hashed into the challenge: the disclosed pairs first, then the points, the
pseudonym triple when there is one, the domain and the length-prefixed presentation header. -/
def challengeOctets (abar bbar d t1 t2 : G₁) (disclosedIndexes : List ℕ)
    (disclosedScalars : List (ZMod p)) (domain : ZMod p) (presentationHeader : List UInt8)
    (nym : Option (G₁ × G₁ × G₁)) : List UInt8 :=
  let pt := S.codec.pointToBytes
  u64BeBytes disclosedIndexes.length ++
    (disclosedIndexes.zip disclosedScalars).flatMap
      (fun m => u64BeBytes m.1 ++ S.codec.scalarToBytes m.2) ++
    pt abar ++ pt bbar ++ pt d ++ pt t1 ++ pt t2 ++
    (match nym with
     | some (pseudonym, op, ut) => pt pseudonym ++ pt op ++ pt ut
     | none => []) ++
    S.codec.scalarToBytes domain ++ u64BeBytes presentationHeader.length ++ presentationHeader

def computeChallenge (hash : HashToScalar p) (abar bbar d t1 t2 : G₁) (disclosedIndexes : List ℕ)
    (disclosedScalars : List (ZMod p)) (domain : ZMod p) (presentationHeader : List UInt8)
    (nym : Option (G₁ × G₁ × G₁)) (apiId : List UInt8) (cs : Ciphersuite) : Except BbsError (ZMod p) :=
  hash (challengeOctets S abar bbar d t1 t2 disclosedIndexes disclosedScalars domain
    presentationHeader nym) (apiId ++ ascii "H2S_") cs

/-! ## Verification -/

variable [DecidableEq G₁] [DecidableEq G₂] [DecidableEq GT]

/-- Generator-agnostic proof verification. -/
def proofVerifyCore (hash : HashToScalar p) (pk : G₂) (proofBytes : List UInt8) (q1 : G₁)
    (hGenerators : List G₁) (disclosedIndexes : List ℕ) (disclosedScalars : List (ZMod p))
    (domain : ZMod p) (presentationHeader : List UInt8) (nym : Option (G₁ × G₁))
    (apiId : List UInt8) (cs : Ciphersuite) : Except BbsError Bool := do
  validatePublicKey pk
  let r := disclosedIndexes.length
  let scalarLen := cs.octetScalarLength
  let minLen := 3 * cs.octetPointLength + 4 * scalarLen
  if proofBytes.length < minLen then throw (.invalidProof "proof too short")
  if (proofBytes.length - minLen) % scalarLen ≠ 0 then
    throw (.invalidProof "proof length is not canonical")
  let u := (proofBytes.length - minLen) / scalarLen
  let l := r + u
  if hGenerators.length ≠ l then throw (.invalidProof "generator/message count mismatch")
  if disclosedScalars.length ≠ r then throw (.invalidProof "disclosed scalar/index count mismatch")
  checkIndexes l disclosedIndexes []
  let P ← deserializeProof S proofBytes u
  let t1 := recomputeT1 P
  let bv := recomputeBv S q1 hGenerators disclosedIndexes disclosedScalars domain
  let t2 := recomputeT2 bv hGenerators (undisclosedIndexes l disclosedIndexes) P
  match ← nymTerms l u disclosedIndexes P nym with
  | none => return false
  | some terms =>
    let recomputed ← computeChallenge S hash P.abar P.bbar P.d t1 t2 disclosedIndexes
      disclosedScalars domain presentationHeader terms apiId cs
    if P.challenge ≠ recomputed then return false
    return decide (S.group.pair P.abar pk + S.group.pair (-P.bbar) S.group.gen = 0)

/-- The shared implementation behind the entry points: generators and domain come from the
ciphersuite, the message count from the length of the proof. -/
def coreProofVerifyImpl (hash : HashToScalar p) (pk : G₂) (proofBytes header presentationHeader : List UInt8)
    (disclosedMessages : List (List UInt8)) (disclosedIndexes : List ℕ) (nym : Option (G₁ × G₁))
    (cs : Ciphersuite) : Except BbsError Bool := do
  validatePublicKey pk
  let r := disclosedIndexes.length
  let scalarLen := cs.octetScalarLength
  let minLen := 3 * cs.octetPointLength + 4 * scalarLen
  if proofBytes.length < minLen then throw (.invalidProof "proof too short")
  let u := (proofBytes.length - minLen) / scalarLen
  let l := r + u
  if disclosedMessages.length ≠ r then throw (.invalidProof "disclosed message count mismatch")
  let disclosedScalars ← messagesToScalars hash disclosedMessages cs
  let generators ← createGenerators S (l + 1) cs
  let q1 := generators.getD 0 0
  let hGenerators := generators.drop 1
  let domain ← calculateDomain S hash pk q1 hGenerators header cs
  proofVerifyCore S hash pk proofBytes q1 hGenerators disclosedIndexes disclosedScalars domain
    presentationHeader nym cs.apiId cs

def coreProofVerify (hash : HashToScalar p) (pk : G₂) (proofBytes header presentationHeader : List UInt8)
    (disclosedMessages : List (List UInt8)) (disclosedIndexes : List ℕ) (cs : Ciphersuite) :
    Except BbsError Bool :=
  coreProofVerifyImpl S hash pk proofBytes header presentationHeader disclosedMessages
    disclosedIndexes none cs

def coreProofVerifyWithPseudonym (hash : HashToScalar p) (pk : G₂)
    (proofBytes header presentationHeader : List UInt8) (disclosedMessages : List (List UInt8))
    (disclosedIndexes : List ℕ) (verifierContext : List UInt8) (pseudonym : G₁) (cs : Ciphersuite) :
    Except BbsError Bool :=
  coreProofVerifyImpl S hash pk proofBytes header presentationHeader disclosedMessages
    disclosedIndexes (some (calculatePseudonymGenerator S verifierContext cs, pseudonym)) cs

/-- The crate's entry point, with the default ciphersuite. -/
def proofVerify (hash : HashToScalar p) (pk : G₂) (proofBytes header presentationHeader : List UInt8)
    (disclosedMessages : List (List UInt8)) (disclosedIndexes : List ℕ) : Except BbsError Bool :=
  coreProofVerify S hash pk proofBytes header presentationHeader disclosedMessages
    disclosedIndexes .bls12381Sha256

end Verify

end AffinidiTdk.Bbs
