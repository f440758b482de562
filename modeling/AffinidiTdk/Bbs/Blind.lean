/-
Blind issuance (`affinidi-bbs`, `blind.rs`, and the issuance half of `nym.rs`): a holder commits to messages, the issuer
signs over the commitment and its own messages, and the holder checks the signature over all of them. The random scalars
of a commitment are an argument.
-/
import AffinidiTdk.Bbs.Sign

namespace AffinidiTdk.Bbs

open Bilinear

/-! ## Names -/

namespace Ciphersuite

def blindApiId (cs : Ciphersuite) : List UInt8 := ascii cs.id ++ ascii "BLIND_H2G_HM2S_"

def pseudonymApiId (cs : Ciphersuite) : List UInt8 := ascii cs.id ++ ascii "H2G_HM2S_PSEUDONYM_"

end Ciphersuite

/-- `"BLIND_" || blind_api_id`. -/
def blindGeneratorsApiId (cs : Ciphersuite) : List UInt8 := ascii "BLIND_" ++ cs.blindApiId

/-- `"BLIND_" || pseudonym_api_id`. -/
def pseudonymBlindGeneratorsApiId (cs : Ciphersuite) : List UInt8 := ascii "BLIND_" ++ cs.pseudonymApiId

variable {p : ℕ} [Fact p.Prime] {G₁ G₂ GT : Type} [AddCommGroup G₁] [Module (ZMod p) G₁]
  [AddCommGroup G₂] [Module (ZMod p) G₂] [AddCommGroup GT] [Module (ZMod p) GT]
  (S : Suite p G₁ G₂ GT)

/-! ## The commitment -/

def calculateBlindChallenge (hash : HashToScalar p) (c cbar : G₁) (blindGenerators : List G₁) (apiId : List UInt8)
    (cs : Ciphersuite) : Except BbsError (ZMod p) :=
  let data := u64BeBytes (blindGenerators.length - 1) ++ blindGenerators.flatMap S.codec.pointToBytes ++
    S.codec.pointToBytes c ++ S.codec.pointToBytes cbar
  hash data (apiId ++ ascii "H2S_") cs

def commitmentWithProofToOctets (commitment : G₁) (proof : List (ZMod p)) : List UInt8 :=
  S.codec.pointToBytes commitment ++ proof.flatMap S.codec.scalarToBytes

/-- `Q_2 * blind + sum_i J_i * scalar_i`. -/
def blindSum (blindGenerators : List G₁) (blind : ZMod p) (scalars : List (ZMod p)) : G₁ :=
  let q2 := blindGenerators.getD 0 0
  let j := blindGenerators.drop 1
  scalars.zipIdx.foldl (fun c m => c + m.1 • j.getD m.2 0) (blind • q2)

def coreCommit (hash : HashToScalar p) (committedScalars : List (ZMod p)) (blindGenerators : List G₁)
    (apiId : List UInt8) (randomScalars : List (ZMod p)) (cs : Ciphersuite) :
    Except BbsError (List UInt8 × ZMod p) := do
  if blindGenerators.length ≠ committedScalars.length + 1 then
    throw (.crypto "blind_generators length must be committed message count + 1")
  let secretProverBlind := randomScalars.getD 0 0
  let sTilde := randomScalars.getD 1 0
  let mTildes := randomScalars.drop 2
  let c := blindSum blindGenerators secretProverBlind committedScalars
  let cbar := blindSum blindGenerators sTilde mTildes
  let challenge ← calculateBlindChallenge S hash c cbar blindGenerators apiId cs
  let sHat := sTilde + secretProverBlind * challenge
  let mHats := List.zipWith (fun mt msg => mt + msg * challenge) mTildes committedScalars
  let proof := sHat :: mHats ++ [challenge]
  return (commitmentWithProofToOctets S c proof, secretProverBlind)

/-- `commit`, with its random scalars. -/
def commitWithRandomScalars (hash : HashToScalar p) (committedMessages : List (List UInt8))
    (randomScalars : List (ZMod p)) (cs : Ciphersuite) : Except BbsError (List UInt8 × ZMod p) := do
  let m := committedMessages.length
  if randomScalars.length ≠ m + 2 then
    throw (.crypto s!"blind commit needs {m + 2} random scalars, got {randomScalars.length}")
  let apiId := cs.blindApiId
  let committedScalars ← messagesToScalarsWithApiId hash committedMessages apiId cs
  let blindGenerators ← createGeneratorsWithApiId S (m + 1) (blindGeneratorsApiId cs) cs
  coreCommit S hash committedScalars blindGenerators apiId randomScalars cs

/-- `nym_commit`, with its random scalars: `prover_nym` is the last committed message. -/
def nymCommitWithRandomScalars (hash : HashToScalar p) (proverNym : ZMod p) (committedMessages : List (List UInt8))
    (randomScalars : List (ZMod p)) (cs : Ciphersuite) : Except BbsError (List UInt8 × ZMod p) := do
  let apiId := cs.pseudonymApiId
  let messageScalars ← messagesToScalarsWithApiId hash committedMessages apiId cs
  let committedScalars := messageScalars ++ [proverNym]
  let blindGenerators ← createGeneratorsWithApiId S (committedScalars.length + 1)
    (pseudonymBlindGeneratorsApiId cs) cs
  coreCommit S hash committedScalars blindGenerators apiId randomScalars cs

/-! ## The issuer's view of the commitment -/

/-- The scalars from `idx` on and where they end; the fuel is the length of the octets. -/
def readCommitmentScalars (bytes : List UInt8) (scalarLen : ℕ) : ℕ → ℕ → Except BbsError (List (ZMod p) × ℕ)
  | 0, idx => .ok ([], idx)
  | fuel + 1, idx =>
    if idx + scalarLen ≤ bytes.length then
      match S.codec.scalarFromBytes ((bytes.drop idx).take scalarLen) with
      | none => .error (.deserialization "invalid scalar in commitment proof")
      | some s =>
        if s = 0 then .error (.deserialization "zero scalar in commitment proof")
        else do
          let (rest, idx) ← readCommitmentScalars bytes scalarLen fuel (idx + scalarLen)
          return (s :: rest, idx)
    else .ok ([], idx)

variable [DecidableEq G₁]

def octetsToCommitmentWithProof (bytes : List UInt8) (cs : Ciphersuite) : Except BbsError (G₁ × List (ZMod p)) := do
  let pointLen := cs.octetPointLength
  let scalarLen := cs.octetScalarLength
  let floor := pointLen + 2 * scalarLen
  if bytes.length < floor then
    throw (.deserialization s!"commitment_with_proof too short: {bytes.length} < {floor}")
  let commitment ← (S.codec.pointFromBytes (bytes.take pointLen)).elim
    (throw (.deserialization "invalid commitment point")) pure
  if commitment = 0 then throw (.deserialization "commitment is identity")
  let (proof, idx) ← readCommitmentScalars S bytes scalarLen bytes.length pointLen
  if idx ≠ bytes.length then throw (.deserialization "trailing bytes in commitment proof")
  if proof.length < 2 then throw (.deserialization "commitment proof must have at least two scalars")
  return (commitment, proof)

omit [DecidableEq G₁] in
def coreCommitVerify (hash : HashToScalar p) (commitment : G₁) (commitmentProof : List (ZMod p))
    (blindGenerators : List G₁) (apiId : List UInt8) (cs : Ciphersuite) : Except BbsError Bool := do
  let sHat := commitmentProof.getD 0 0
  let cp := commitmentProof.getD (commitmentProof.length - 1) 0
  let mHats := (commitmentProof.drop 1).dropLast
  if blindGenerators.length ≠ mHats.length + 1 then
    throw (.crypto "blind_generators length must equal commitment message count + 1")
  let cbar := blindSum blindGenerators sHat mHats - cp • commitment
  let cv ← calculateBlindChallenge S hash commitment cbar blindGenerators apiId cs
  return decide (cv = cp)

/-- No octets are the commitment to nothing. -/
def deserializeAndValidateCommit (hash : HashToScalar p) (commitmentWithProof : List UInt8)
    (blindGenerators : List G₁)
    (apiId : List UInt8) (cs : Ciphersuite) : Except BbsError G₁ := do
  if commitmentWithProof.isEmpty then return 0
  else
    let (commitment, proof) ← octetsToCommitmentWithProof S commitmentWithProof cs
    let msgCommitments := proof.length - 2
    if msgCommitments + 1 ≠ blindGenerators.length then
      throw (.deserialization
        s!"commitment message count ({msgCommitments}) + 1 != blind generators ({blindGenerators.length})")
    if !(← coreCommitVerify S hash commitment proof blindGenerators apiId cs) then
      throw (.invalidProof "commitment proof failed")
    return commitment

/-! ## Signing -/

omit [Fact p.Prime] [DecidableEq G₁] in
/-- The committed messages, from the length of the octets. -/
def blindMessageCount (cwpLen : ℕ) (cs : Ciphersuite) : Except BbsError ℕ := do
  if cwpLen = 0 then return 0
  else
    let scalarLen := cs.octetScalarLength
    let floor := cs.octetPointLength + 2 * scalarLen
    if cwpLen < floor ∨ (cwpLen - floor) % scalarLen ≠ 0 then
      throw (.deserialization s!"invalid commitment_with_proof length {cwpLen}")
    return (cwpLen - floor) / scalarLen

omit [DecidableEq G₁] in
/-- `P1 + sum_i H_i * msg_i + commitment`. -/
def issuerB (generators : List G₁) (commitment : G₁) (messageScalars : List (ZMod p)) : G₁ :=
  let h := generators.drop 1
  messageScalars.zipIdx.foldl (fun b m => b + m.1 • h.getD m.2 0) S.p1Generator + commitment

/-- `B_calculate`. -/
def blindBCalculate (generators : List G₁) (commitment : G₁) (messageScalars : List (ZMod p)) :
    Except BbsError G₁ := do
  if generators.length ≠ messageScalars.length + 1 then
    throw (.crypto "generators length must equal signer message count + 1")
  let b := issuerB S generators commitment messageScalars
  if b = 0 then throw (.invalidSignature "blind B is identity")
  return b

omit [DecidableEq G₁] in
/-- `e = hash_to_scalar(serialize(SK, B))`. -/
def blindSignatureE (hash : HashToScalar p) (sk : ZMod p) (b : G₁) (apiId : List UInt8) (cs : Ciphersuite) :
    Except BbsError (ZMod p) :=
  hash (S.codec.scalarToBytes sk ++ S.codec.pointToBytes b) (apiId ++ ascii "H2S_") cs

def finalizeBlindSign (hash : HashToScalar p) (sk : ZMod p) (pk : G₂) (b : G₁) (generators blindGenerators : List G₁)
    (header apiId : List UInt8) (cs : Ciphersuite) : Except BbsError (Signature p G₁) := do
  let q1 := generators.getD 0 0
  let domain ← calculateDomainWithApiId S hash pk q1 (generators.drop 1 ++ blindGenerators) header apiId cs
  let b := b + domain • q1
  let e ← blindSignatureE S hash sk b apiId cs
  if sk + e = 0 then throw (.crypto "SK + e has no inverse")
  let a := (sk + e)⁻¹ • b
  if a = 0 then throw (.invalidSignature "blind signature A is identity")
  return ⟨a, e⟩

def blindSign (hash : HashToScalar p) (sk : ZMod p) (pk : G₂) (commitmentWithProof header : List UInt8)
    (messages : List (List UInt8)) (cs : Ciphersuite) : Except BbsError (Signature p G₁) := do
  let apiId := cs.blindApiId
  let m ← blindMessageCount commitmentWithProof.length cs
  let generators ← createGeneratorsWithApiId S (messages.length + 1) apiId cs
  let blindGenerators ← createGeneratorsWithApiId S (m + 1) (blindGeneratorsApiId cs) cs
  let commitment ← deserializeAndValidateCommit S hash commitmentWithProof blindGenerators apiId cs
  let messageScalars ← messagesToScalarsWithApiId hash messages apiId cs
  let b ← blindBCalculate S generators commitment messageScalars
  finalizeBlindSign S hash sk pk b generators blindGenerators header apiId cs

/-- The last blind generator is that of the nym; the issuer adds its entropy to it. -/
def blindSignWithNym (hash : HashToScalar p) (sk : ZMod p) (pk : G₂) (commitmentWithProof : List UInt8)
    (signerNymEntropy : ZMod p) (header : List UInt8) (messages : List (List UInt8)) (cs : Ciphersuite) :
    Except BbsError (Signature p G₁) := do
  let apiId := cs.pseudonymApiId
  let m ← blindMessageCount commitmentWithProof.length cs
  let generators ← createGeneratorsWithApiId S (messages.length + 1) apiId cs
  let blindGenerators ← createGeneratorsWithApiId S (m + 1) (pseudonymBlindGeneratorsApiId cs) cs
  let commitment ← deserializeAndValidateCommit S hash commitmentWithProof blindGenerators apiId cs
  let messageScalars ← messagesToScalarsWithApiId hash messages apiId cs
  let b ← blindBCalculate S generators commitment messageScalars
  let nymGenerator ← blindGenerators.getLast?.elim (throw (.crypto "missing nym generator")) pure
  let b := b + signerNymEntropy • nymGenerator
  if b = 0 then throw (.invalidSignature "blind B with nym is identity")
  finalizeBlindSign S hash sk pk b generators blindGenerators header apiId cs

/-! ## Verification -/

variable [DecidableEq G₂] [DecidableEq GT]

/-- A signature over the issuer's and the committed scalars, each under its own generators. -/
def verifyCombined (hash : HashToScalar p) (pk : G₂) (signature : Signature p G₁) (header : List UInt8)
    (msgScalars committedScalars : List (ZMod p)) (apiId blindApiId : List UInt8) (cs : Ciphersuite) :
    Except BbsError Bool := do
  let generators ← createGeneratorsWithApiId S (msgScalars.length + 1) apiId cs
  let blindGenerators ← createGeneratorsWithApiId S committedScalars.length blindApiId cs
  let allGens := generators ++ blindGenerators
  let q1 := allGens.getD 0 0
  let hGenerators := allGens.drop 1
  let domain ← calculateDomainWithApiId S hash pk q1 hGenerators header apiId cs
  let b := computeB S q1 domain hGenerators (msgScalars ++ committedScalars)
  return verifySignaturePairing S pk signature b

def blindVerify (hash : HashToScalar p) (pk : G₂) (signature : Signature p G₁) (header : List UInt8)
    (messages committedMessages : List (List UInt8)) (secretProverBlind : ZMod p) (cs : Ciphersuite) :
    Except BbsError Bool := do
  validatePublicKey pk
  if signature.a = 0 then throw (.invalidSignature "A is identity")
  let apiId := cs.blindApiId
  let msgScalars ← messagesToScalarsWithApiId hash messages apiId cs
  let committedMessageScalars ← messagesToScalarsWithApiId hash committedMessages apiId cs
  let committedScalars := secretProverBlind :: committedMessageScalars
  verifyCombined S hash pk signature header msgScalars committedScalars apiId (blindGeneratorsApiId cs) cs

def blindVerifyWithNym (hash : HashToScalar p) (pk : G₂) (signature : Signature p G₁) (header : List UInt8)
    (messages committedMessages : List (List UInt8)) (proverNym signerNymEntropy secretProverBlind : ZMod p)
    (cs : Ciphersuite) : Except BbsError Bool := do
  validatePublicKey pk
  if signature.a = 0 then throw (.invalidSignature "A is identity")
  let apiId := cs.pseudonymApiId
  let nymSecret := proverNym + signerNymEntropy
  let msgScalars ← messagesToScalarsWithApiId hash messages apiId cs
  let committedMessageScalars ← messagesToScalarsWithApiId hash committedMessages apiId cs
  let committedScalars := secretProverBlind :: committedMessageScalars ++ [nymSecret]
  verifyCombined S hash pk signature header msgScalars committedScalars apiId (pseudonymBlindGeneratorsApiId cs) cs

end AffinidiTdk.Bbs
