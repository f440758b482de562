/-
BBS signing and proof generation (`affinidi-bbs`, `signature.rs` and `proof.rs`). The random scalars of a
proof are an argument.
-/
import AffinidiTdk.Bbs.Proof

namespace AffinidiTdk.Bbs

open Bilinear

variable {p : ℕ} [Fact p.Prime] {G₁ G₂ GT : Type} [AddCommGroup G₁] [Module (ZMod p) G₁]
  [AddCommGroup G₂] [Module (ZMod p) G₂] [AddCommGroup GT] [Module (ZMod p) GT]
  (S : Suite p G₁ G₂ GT)

/-! ## Signing -/

def coreSign (hash : HashToScalar p) (sk : ZMod p) (pk : G₂) (header : List UInt8) (messages : List (List UInt8))
    (cs : Ciphersuite) : Except BbsError (Signature p G₁) := do
  let msgScalars ← messagesToScalars hash messages cs
  let generators ← createGenerators S (messages.length + 1) cs
  let q1 := generators.getD 0 0
  let hGenerators := generators.drop 1
  let domain ← calculateDomain S hash pk q1 hGenerators header cs
  let eInput := S.codec.scalarToBytes sk ++ msgScalars.flatMap S.codec.scalarToBytes ++ S.codec.scalarToBytes domain
  let e ← hash eInput (cs.apiId ++ ascii "H2S_") cs
  let b := computeB S q1 domain hGenerators msgScalars
  if sk + e = 0 then throw (.crypto "SK + e has no inverse")
  return ⟨(sk + e)⁻¹ • b, e⟩

/-! ## Proof generation -/

/-- The random scalars of a proof: `r1`, `r2`, `e~`, `r1~`, `r3~` and one `m~` for each undisclosed message. -/
structure ProofRandomScalars (p : ℕ) where
  r1 : ZMod p
  r2 : ZMod p
  eTilde : ZMod p
  r1Tilde : ZMod p
  r3Tilde : ZMod p
  mTildes : List (ZMod p)

/-- As they are sampled for `u` undisclosed messages. -/
structure ProofRandomScalars.Sampled (r : ProofRandomScalars p) (u : ℕ) : Prop where
  r1 : r.r1 ≠ 0
  r2 : r.r2 ≠ 0
  eTilde : r.eTilde ≠ 0
  r1Tilde : r.r1Tilde ≠ 0
  r3Tilde : r.r3Tilde ≠ 0
  mTildes : ∀ m ∈ r.mTildes, m ≠ 0
  length : r.mTildes.length = u

/-- The pseudonym step of the prover: the triple `(Pseudonym, OP, Ut)`. -/
def proverNymTerms [DecidableEq G₁] (disclosedIndexes : List ℕ) (msgScalars mTildes : List (ZMod p)) (u : ℕ) :
    Option G₁ → Except BbsError (Option (G₁ × G₁ × G₁))
  | none => .ok none
  | some op =>
    let nymIndex := msgScalars.length - 1
    if disclosedIndexes.contains nymIndex then
      .error (.invalidIndex "nym_secret (last message) must not be disclosed")
    else
      let pseudonym := msgScalars.getD nymIndex 0 • op
      let ut := mTildes.getD (u - 1) 0 • op
      if pseudonym = 0 ∨ ut = 0 then .error (.crypto "pseudonym or Ut is identity")
      else .ok (some (pseudonym, op, ut))

/-- Generator-agnostic proof generation. -/
def proofGenCore [DecidableEq G₁] (hash : HashToScalar p) (signature : Signature p G₁) (q1 : G₁)
    (hGenerators : List G₁)
    (msgScalars : List (ZMod p)) (domain : ZMod p) (presentationHeader : List UInt8) (disclosedIndexes : List ℕ)
    (randomScalars : ProofRandomScalars p) (nymOp : Option G₁) (apiId : List UInt8) (cs : Ciphersuite) :
    Except BbsError (List UInt8 × Option G₁) := do
  let l := msgScalars.length
  checkIndexes l disclosedIndexes []
  let undisclosed := undisclosedIndexes l disclosedIndexes
  let ⟨r1, r2, eTilde, r1Tilde, r3Tilde, mTildes⟩ := randomScalars
  let b := computeB S q1 domain hGenerators msgScalars
  let d := r2 • b
  let abar := (r1 * r2) • signature.a
  let bbar := r1 • d - signature.e • abar
  let r3 := r2⁻¹
  let t1 := eTilde • abar + r1Tilde • d
  let t2 := undisclosed.zipIdx.foldl (fun t2 j => t2 + mTildes.getD j.2 0 • hGenerators.getD j.1 0) (r3Tilde • d)
  let nymTerms ← proverNymTerms disclosedIndexes msgScalars mTildes undisclosed.length nymOp
  let disclosedScalars := disclosedIndexes.map fun i => msgScalars.getD i 0
  let challenge ← computeChallenge S hash abar bbar d t1 t2 disclosedIndexes disclosedScalars domain
    presentationHeader
    nymTerms apiId cs
  let parts : ProofParts p G₁ :=
    { abar, bbar, d, challenge
      eHat := eTilde + challenge * signature.e
      r1Hat := r1Tilde - challenge * r1
      r3Hat := r3Tilde - challenge * r3
      mHats := undisclosed.zipIdx.map fun j => mTildes.getD j.2 0 + challenge * msgScalars.getD j.1 0 }
  return (serializeProof S parts, nymTerms.map Prod.fst)

def coreProofGenImpl [DecidableEq G₁] (hash : HashToScalar p) (pk : G₂) (signature : Signature p G₁)
    (header presentationHeader : List UInt8) (messages : List (List UInt8)) (disclosedIndexes : List ℕ)
    (randomScalars : ProofRandomScalars p) (nymOp : Option G₁) (cs : Ciphersuite) :
    Except BbsError (List UInt8 × Option G₁) := do
  let msgScalars ← messagesToScalars hash messages cs
  let generators ← createGenerators S (messages.length + 1) cs
  let q1 := generators.getD 0 0
  let hGenerators := generators.drop 1
  let domain ← calculateDomain S hash pk q1 hGenerators header cs
  proofGenCore S hash signature q1 hGenerators msgScalars domain presentationHeader disclosedIndexes randomScalars
    nymOp cs.apiId cs

def coreProofGen [DecidableEq G₁] (hash : HashToScalar p) (pk : G₂) (signature : Signature p G₁)
    (header presentationHeader : List UInt8) (messages : List (List UInt8)) (disclosedIndexes : List ℕ)
    (randomScalars : ProofRandomScalars p) (cs : Ciphersuite) : Except BbsError (List UInt8) := do
  return (← coreProofGenImpl S hash pk signature header presentationHeader messages disclosedIndexes
    randomScalars none cs).1

end AffinidiTdk.Bbs
