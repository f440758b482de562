/-
Proofs over signatures are complete: for the plain ones, and for those with a pseudonym (`affinidi-bbs`, `nym.rs`), where
prover and verifier build one list of scalars and generators out of the issuer's and the holder's messages.
-/
import AffinidiTdk.Bbs.BlindIssuance
import Mathlib.Data.List.GetD

namespace AffinidiTdk.Bbs

open List Ciphersuite
open Bilinear Combination Fallible

variable {p : ℕ} [Fact p.Prime] {G₁ G₂ GT : Type} [AddCommGroup G₁] [Module (ZMod p) G₁]
  [AddCommGroup G₂] [Module (ZMod p) G₂] [AddCommGroup GT] [Module (ZMod p) GT]

/-! ## Proofs with a pseudonym -/

section Model

variable (S : Suite p G₁ G₂ GT)

def calculatePseudonymGeneratorWithApiId (contextId apiId : List UInt8) : G₁ := S.hashToCurve contextId apiId

/-- The committed message `j` is the message `j + L + 1`: the blind lies between. -/
def nymIndexes (l : ℕ) (disclosedIndexes disclosedCommittedIndexes : List ℕ) : List ℕ :=
  disclosedIndexes ++ disclosedCommittedIndexes.map fun j => j + l + 1

variable [DecidableEq G₁]

def proofGenWithNymImpl (hash : HashToScalar p) (pk : G₂) (signature : Signature p G₁)
    (header presentationHeader : List UInt8) (nymSecret : ZMod p) (contextId : List UInt8)
    (messages : List (List UInt8)) (disclosedIndexes : List ℕ) (committedMessages : List (List UInt8))
    (disclosedCommittedIndexes : List ℕ) (secretProverBlind : ZMod p) (randomScalars : ProofRandomScalars p)
    (cs : Ciphersuite) : Except BbsError (List UInt8 × G₁) := do
  let apiId := cs.pseudonymApiId
  let l := messages.length
  let m := committedMessages.length
  if disclosedIndexes.any (fun i => decide (i ≥ l)) then
    throw (.invalidIndex "disclosed signer index out of range")
  if disclosedCommittedIndexes.any (fun j => decide (j ≥ m)) then
    throw (.invalidIndex "disclosed committed index out of range")
  let messageScalars ← messagesToScalarsWithApiId hash messages apiId cs
  let committedScalars ← messagesToScalarsWithApiId hash committedMessages apiId cs
  let fullScalars := messageScalars ++ [secretProverBlind] ++ committedScalars ++ [nymSecret]
  let generators ← createGeneratorsWithApiId S (l + 1) apiId cs
  let blindGenerators ← createGeneratorsWithApiId S (m + 2) (pseudonymBlindGeneratorsApiId cs) cs
  let allGens := generators ++ blindGenerators
  let indexes := nymIndexes l disclosedIndexes disclosedCommittedIndexes
  let op := calculatePseudonymGeneratorWithApiId S contextId apiId
  let domain ← calculateDomainWithApiId S hash pk (allGens.getD 0 0) (allGens.drop 1) header apiId cs
  let (proof, pseudonym) ← proofGenCore S hash signature (allGens.getD 0 0) (allGens.drop 1) fullScalars domain
    presentationHeader indexes randomScalars (some op) apiId cs
  let pseudonym ← pseudonym.elim (throw (.crypto "pseudonym not produced")) pure
  return (proof, pseudonym)

/-- `l` is the number of the issuer's messages; the committed ones are counted from the proof. -/
def proofVerifyWithNym [DecidableEq G₂] [DecidableEq GT] (hash : HashToScalar p) (pk : G₂)
    (proof header presentationHeader : List UInt8) (pseudonym : G₁) (contextId : List UInt8) (l : ℕ)
    (disclosedMessages : List (List UInt8)) (disclosedIndexes : List ℕ)
    (disclosedCommittedMessages : List (List UInt8)) (disclosedCommittedIndexes : List ℕ) (cs : Ciphersuite) :
    Except BbsError Bool := do
  let apiId := cs.pseudonymApiId
  let scalarLen := cs.octetScalarLength
  let pointLen := cs.octetPointLength
  let minLen := 3 * pointLen + 4 * scalarLen
  let plen := proof.length
  if plen < minLen then throw (.invalidProof "proof too short")
  let u := (plen - minLen) / scalarLen
  let totalNoMessages := disclosedIndexes.length + disclosedCommittedIndexes.length + u
  if totalNoMessages < l + 1 then throw (.invalidProof "inconsistent message counts")
  let m := totalNoMessages - (l + 1)
  let generators ← createGeneratorsWithApiId S (l + 1) apiId cs
  let blindGenerators ← createGeneratorsWithApiId S (m + 1) (pseudonymBlindGeneratorsApiId cs) cs
  let allGens := generators ++ blindGenerators
  let disclosedScalars ← messagesToScalarsWithApiId hash disclosedMessages apiId cs
  let disclosedCommittedScalars ← messagesToScalarsWithApiId hash disclosedCommittedMessages apiId cs
  let indexes := nymIndexes l disclosedIndexes disclosedCommittedIndexes
  let op := calculatePseudonymGeneratorWithApiId S contextId apiId
  let domain ← calculateDomainWithApiId S hash pk (allGens.getD 0 0) (allGens.drop 1) header apiId cs
  proofVerifyCore S hash pk proof (allGens.getD 0 0) (allGens.drop 1) indexes
    (disclosedScalars ++ disclosedCommittedScalars) domain presentationHeader (some (op, pseudonym)) apiId cs

end Model

variable {S : Suite p G₁ G₂ GT} {hash : HashToScalar p} {apiId : List UInt8} {cs : Ciphersuite}

/-! ## Disclosed messages -/

/-- The messages at a list of indexes. -/
def messagesAt (messages : List (List UInt8)) (indexes : List ℕ) : List (List UInt8) :=
  indexes.map fun i => messages.getD i []

theorem length_messagesAt (messages : List (List UInt8)) (indexes : List ℕ) :
    (messagesAt messages indexes).length = indexes.length :=
  length_map _

theorem messagesToScalars_messagesAt {messages : List (List UInt8)} {scalars : List (ZMod p)} {indexes : List ℕ}
    (h : messagesToScalarsWithApiId hash messages apiId cs = .ok scalars)
      (hlt : ∀ i ∈ indexes, i < messages.length) :
    messagesToScalarsWithApiId hash (messagesAt messages indexes) apiId cs = .ok (scalarsAt scalars indexes) := by
  obtain ⟨-, hget⟩ := messagesToScalarsWithApiId_getD h
  unfold messagesToScalarsWithApiId messagesAt scalarsAt
  induction indexes with
  | nil => rfl
  | cons i indexes ih =>
    have hrest := ih fun j hj => hlt j (mem_cons_of_mem _ hj)
    rw [map_cons, mapM_cons, hget i (hlt i mem_cons_self), ok_bind, hrest]
    rfl

/-! ## The plain proof -/

section Plain

theorem coreSign_eq (hhash : ∀ data dst, ∃ s, hash data dst .bls12381Sha256 = .ok s) {sk : ZMod p} {pk : G₂}
    {header : List UInt8} {messages : List (List UInt8)} {msgScalars : List (ZMod p)} {generators : List G₁}
    {domain : ZMod p} (hscalars : messagesToScalars hash messages .bls12381Sha256 = .ok msgScalars)
    (hgenerators : createGenerators S (messages.length + 1) .bls12381Sha256 = .ok generators)
    (hdomain : calculateDomain S hash pk (generators.getD 0 0) (generators.drop 1) header .bls12381Sha256 =
      .ok domain) :
    coreSign S hash sk pk header messages .bls12381Sha256 = .error (.crypto "SK + e has no inverse") ∨
    ∃ signature, coreSign S hash sk pk header messages .bls12381Sha256 = .ok signature ∧
      (sk + signature.e) • signature.a = computeB S (generators.getD 0 0) domain (generators.drop 1) msgScalars := by
  obtain ⟨e, he⟩ := hhash (S.codec.scalarToBytes sk ++ msgScalars.flatMap S.codec.scalarToBytes ++
    S.codec.scalarToBytes domain) (apiId .bls12381Sha256 ++ ascii "H2S_")
  unfold coreSign
  rw [hscalars, ok_bind, hgenerators, ok_bind]
  dsimp only
  rw [hdomain, ok_bind, he, ok_bind]
  by_cases hinv : sk + e = 0
  · left
    rw [if_pos hinv]
    rfl
  · right
    rw [if_neg hinv]
    exact ⟨_, rfl, by rw [smul_smul, mul_inv_cancel₀ hinv, one_smul]⟩

theorem serializeProof_undisclosed {P : ProofParts p G₁} {l : ℕ} {disclosedIndexes : List ℕ}
    (hlt : ∀ i ∈ disclosedIndexes, i < l) (hnd : disclosedIndexes.Nodup)
    (hmHats : P.mHats.length = (undisclosedIndexes l disclosedIndexes).length) :
    ((serializeProof S P).length - (3 * 48 + 4 * 32)) / 32 = l - disclosedIndexes.length := by
  rw [length_serializeProof, hmHats, length_undisclosedIndexes hlt hnd]
  omega

theorem length_le_of_lt {l : ℕ} {indexes : List ℕ} (hlt : ∀ i ∈ indexes, i < l) (hnd : indexes.Nodup) :
    indexes.length ≤ l := by
  have hsub := hnd.length_le_of_subset fun i hi => mem_range.2 (hlt i hi)
  rwa [length_range] at hsub

variable [DecidableEq G₁] [DecidableEq G₂] [DecidableEq GT]

theorem coreProofVerify_eq {pk : G₂} (hpk : pk ≠ 0) {header presentationHeader : List UInt8}
    {messages : List (List UInt8)} {disclosedIndexes : List ℕ} {msgScalars : List (ZMod p)} {generators : List G₁}
    {domain : ZMod p} (hscalars : messagesToScalars hash messages .bls12381Sha256 = .ok msgScalars)
    (hgenerators : createGenerators S (messages.length + 1) .bls12381Sha256 = .ok generators)
    (hdomain : calculateDomain S hash pk (generators.getD 0 0) (generators.drop 1) header .bls12381Sha256 =
    .ok domain) (hlt : ∀ i ∈ disclosedIndexes, i < messages.length) (hnd : disclosedIndexes.Nodup)
    {P : ProofParts p G₁}
    (hmHats : P.mHats.length = (undisclosedIndexes messages.length disclosedIndexes).length) :
    coreProofVerify S hash pk (serializeProof S P) header presentationHeader (messagesAt messages disclosedIndexes)
    disclosedIndexes .bls12381Sha256 = proofVerifyCore S hash pk (serializeProof S P) (generators.getD 0 0)
    (generators.drop 1) disclosedIndexes (scalarsAt msgScalars disclosedIndexes) domain presentationHeader none
    (Ciphersuite.apiId .bls12381Sha256) .bls12381Sha256 := by
  have hcount := @serializeProof_undisclosed _ _ _ _ _ _ _ _ _ _ _ S _ _ _ hlt hnd hmHats
  have hle := length_le_of_lt hlt hnd
  have hdisclosed : messagesToScalars hash (messagesAt messages disclosedIndexes) .bls12381Sha256 =
      .ok (scalarsAt msgScalars disclosedIndexes) := messagesToScalars_messagesAt hscalars hlt
  unfold coreProofVerify coreProofVerifyImpl validatePublicKey
  dsimp only
  rw [show Ciphersuite.octetPointLength .bls12381Sha256 = 48 from rfl,
    show Ciphersuite.octetScalarLength .bls12381Sha256 = 32 from rfl, hcount, if_neg hpk,
    if_neg (by rw [length_serializeProof]; omega)]
  show ((if _ then _ else _) : Except BbsError Bool) = _
  rw [if_neg (not_not.2 (length_messagesAt messages disclosedIndexes)), hdisclosed, ok_bind,
    show disclosedIndexes.length + (messages.length - disclosedIndexes.length) + 1 = messages.length + 1 by omega,
    hgenerators, ok_bind, hdomain, ok_bind]

variable (hhash : ∀ data dst, ∃ s, hash data dst .bls12381Sha256 = .ok s)
include hhash

theorem coreProofVerify_coreProofGen {sk : ZMod p} (hsk : sk ≠ 0) {header presentationHeader : List UInt8}
    {messages : List (List UInt8)} (hmessages : messages.length < maxGenerators) {disclosedIndexes : List ℕ}
    (hlt : ∀ i ∈ disclosedIndexes, i < messages.length) (hnd : disclosedIndexes.Nodup) {r : ProofRandomScalars p}
    (hr : r.Sampled (messages.length - disclosedIndexes.length)) : coreSign S hash sk (sk • S.group.gen) header
    messages .bls12381Sha256 = .error (.crypto "SK + e has no inverse") ∨ ∃ signature P, coreSign S hash sk
    (sk • S.group.gen) header messages .bls12381Sha256 = .ok signature ∧ coreProofGen S hash (sk • S.group.gen)
    signature header presentationHeader messages disclosedIndexes r .bls12381Sha256 = .ok (serializeProof S P) ∧
    (∃ data dst, hash data dst .bls12381Sha256 = .ok P.challenge) ∧
    (P.challenge ≠ 0 → coreProofVerify S hash (sk • S.group.gen) (serializeProof S P) header presentationHeader
    (messagesAt messages disclosedIndexes) disclosedIndexes .bls12381Sha256 = .ok true) := by
  obtain ⟨msgScalars, hscalars⟩ := @messagesToScalarsWithApiId_ok _ hash
    (Ciphersuite.apiId .bls12381Sha256) .bls12381Sha256 hhash messages
  obtain ⟨generators, hgenerators⟩ := @createGeneratorsWithApiId_ok _ _ _ _ _ _ _ _ _ _ _ S
    (Ciphersuite.apiId .bls12381Sha256) _ (show messages.length + 1 ≤ maxGenerators from hmessages)
  obtain ⟨domain, hdomain⟩ : ∃ domain, calculateDomain S hash (sk • S.group.gen) (generators.getD 0 0)
      (generators.drop 1) header .bls12381Sha256 = .ok domain := hhash _ _
  rcases @coreSign_eq _ _ _ _ _ _ _ _ _ _ _ S hash hhash sk _ _ _ _ _ _ hscalars hgenerators hdomain with
    hfail | ⟨signature, hsign, hsig⟩
  · exact Or.inl hfail
  right
  have hlength : msgScalars.length = messages.length := (messagesToScalarsWithApiId_getD hscalars).1
  have hlen : msgScalars.length = (generators.drop 1).length := by
    rw [length_drop, length_createGeneratorsWithApiId hgenerators, hlength]
    rfl
  obtain ⟨P, hgen, hmHats, hchallenge, hverify⟩ := @proofVerifyCore_proofGenCore _ _ _ _ _ _ _ _ _ _ _ S _ _ _ hash
    (generators.getD 0 0) (generators.drop 1) disclosedIndexes msgScalars domain presentationHeader
    (Ciphersuite.apiId .bls12381Sha256) signature r sk none none (smul_ne_zero hsk S.group.gen_ne) hsig
    (by rwa [← hlen, hlength]) hnd hlen hr.r2 rfl hhash
  refine ⟨signature, P, hsign, ?_, hchallenge, fun hne => ?_⟩
  · have hscalars' : messagesToScalars hash messages .bls12381Sha256 = .ok msgScalars := hscalars
    have hgenerators' : createGenerators S (messages.length + 1) .bls12381Sha256 = .ok generators := hgenerators
    unfold coreProofGen coreProofGenImpl
    rw [hscalars', ok_bind, hgenerators', ok_bind]
    dsimp only
    rw [hdomain, ok_bind, hgen]
    rfl
  · rw [coreProofVerify_eq (smul_ne_zero hsk S.group.gen_ne) hscalars hgenerators hdomain hlt hnd
      (by rwa [hlength] at hmHats)]
    exact hverify hne

end Plain

/-! ## The list of both sides -/

section Nym

variable {l m : ℕ} {disclosedIndexes disclosedCommittedIndexes : List ℕ}
  {messageScalars committedScalars : List (ZMod p)}
  {secretProverBlind nymSecret : ZMod p}

section Indexes

variable (hlt : ∀ i ∈ disclosedIndexes, i < l) (hltCommitted : ∀ j ∈ disclosedCommittedIndexes, j < m)
include hlt hltCommitted

theorem nymIndexes_lt : ∀ i ∈ nymIndexes l disclosedIndexes disclosedCommittedIndexes, i < l + m + 1 := by
  intro i hi
  rcases mem_append.1 hi with hi | hi
  · have h := hlt i hi
    omega
  · obtain ⟨j, hj, rfl⟩ := mem_map.1 hi
    have h := hltCommitted j hj
    omega

omit hltCommitted in
theorem nymIndexes_nodup (hnd : disclosedIndexes.Nodup) (hndCommitted : disclosedCommittedIndexes.Nodup) :
    (nymIndexes l disclosedIndexes disclosedCommittedIndexes).Nodup := by
  refine nodup_append.2 ⟨hnd, hndCommitted.map fun a b hab => by omega, ?_⟩
  intro i hi k hk
  obtain ⟨j, -, rfl⟩ := mem_map.1 hk
  have h := hlt i hi
  omega

theorem scalarsAt_nymIndexes (hlength : messageScalars.length = l) (hlengthCommitted : committedScalars.length = m) :
    scalarsAt (messageScalars ++ [secretProverBlind] ++ committedScalars ++ [nymSecret])
        (nymIndexes l disclosedIndexes disclosedCommittedIndexes) =
      scalarsAt messageScalars disclosedIndexes ++ scalarsAt committedScalars disclosedCommittedIndexes := by
  unfold scalarsAt nymIndexes
  rw [map_append, map_map]
  refine congrArg₂ (· ++ ·) (map_congr_left fun i hi => ?_) (map_congr_left fun j hj => ?_)
  · have h := hlt i hi
    rw [append_assoc, append_assoc, getD_append _ _ _ _ (by omega)]
  · have h := hltCommitted j hj
    show (messageScalars ++ [secretProverBlind] ++ committedScalars ++ [nymSecret]).getD (j + l + 1) 0 = _
    have hbefore : (messageScalars ++ [secretProverBlind]).length = l + 1 := by simp [hlength]
    rw [getD_append _ _ _ _ (by rw [length_append, hbefore]; omega),
      getD_append_right _ _ _ _ (by omega), hbefore, show j + l + 1 - (l + 1) = j by omega]

end Indexes

variable [DecidableEq G₁]

theorem proverNymTerms_nymIndexes {indexes : List ℕ} {scalars : List (ZMod p)} {r : ProofRandomScalars p} {u : ℕ}
    (hlt : ∀ i ∈ indexes, i < scalars.length) (hr : r.Sampled u) (hu : 0 < u) {op : G₁}
    (hpseudonym : nymSecret • op ≠ 0) :
    ∃ ut, proverNymTerms indexes (scalars ++ [nymSecret]) r.mTildes u (some op) =
      .ok (some (nymSecret • op, op, ut)) := by
  have hlast : (scalars ++ [nymSecret]).length - 1 = scalars.length := by simp
  have hnot : ¬indexes.contains scalars.length = true := by
    intro hmem
    exact Nat.lt_irrefl _ (hlt _ (contains_iff_mem.1 hmem))
  have hsecret : (scalars ++ [nymSecret]).getD scalars.length 0 = nymSecret := by simp [getD_eq_getElem?_getD]
  have hop : op ≠ 0 := fun h => hpseudonym (by rw [h, smul_zero])
  have hmTilde : r.mTildes.getD (u - 1) 0 ≠ 0 := by
    have hidx : u - 1 < r.mTildes.length := by
      rw [hr.length]
      omega
    rw [getD_eq_getElem _ _ hidx]
    exact hr.mTildes _ (getElem_mem hidx)
  refine ⟨r.mTildes.getD (u - 1) 0 • op, ?_⟩
  unfold proverNymTerms
  dsimp only
  rw [hlast, if_neg hnot, hsecret, if_neg (not_or.2 ⟨hpseudonym, smul_ne_zero hmTilde hop⟩)]

variable [DecidableEq G₂] [DecidableEq GT] {pk : G₂} {signature : Signature p G₁}
  {header presentationHeader : List UInt8}
  {messages committedMessages : List (List UInt8)} {proverNym signerNymEntropy : ZMod p}

theorem blindVerifyWithNym_eq_true (h : blindVerifyWithNym S hash pk signature header messages committedMessages
    proverNym signerNymEntropy secretProverBlind cs = .ok true) : pk ≠ 0 ∧ ∃ messageScalars committedScalars
    generators blindGenerators domain, messagesToScalarsWithApiId hash messages cs.pseudonymApiId cs =
    .ok messageScalars ∧ messagesToScalarsWithApiId hash committedMessages cs.pseudonymApiId cs =
    .ok committedScalars ∧ createGeneratorsWithApiId S (messages.length + 1) cs.pseudonymApiId cs =
    .ok generators ∧ createGeneratorsWithApiId S (committedMessages.length + 2) (pseudonymBlindGeneratorsApiId cs)
    cs = .ok blindGenerators ∧ calculateDomainWithApiId S hash pk ((generators ++ blindGenerators).getD 0 0)
    ((generators ++ blindGenerators).drop 1) header cs.pseudonymApiId cs = .ok domain ∧ verifySignaturePairing S pk
    signature (computeB S ((generators ++ blindGenerators).getD 0 0) domain
    ((generators ++ blindGenerators).drop 1)
    (messageScalars ++ [secretProverBlind] ++ committedScalars ++ [proverNym + signerNymEntropy])) = true := by
  unfold blindVerifyWithNym verifyCombined validatePublicKey at h
  simp only [bind_eq_ok_iff, guard_eq_ok_iff, ite_throw_eq_ok_iff, pure_eq_ok_iff] at h
  obtain ⟨-, ⟨hpk, -⟩, -, messageScalars, hmessages, committedScalars, hcommitted, generators, hgenerators,
    blindGenerators, hblind, domain, hdomain, hpairing⟩ := h
  have hlength := (messagesToScalarsWithApiId_getD hmessages).1
  have hlengthCommitted : (secretProverBlind :: committedScalars ++ [proverNym + signerNymEntropy]).length =
      committedMessages.length + 2 := by
    rw [length_append, length_cons, (messagesToScalarsWithApiId_getD hcommitted).1]
    rfl
  rw [hlength] at hgenerators
  rw [hlengthCommitted] at hblind
  refine ⟨hpk, messageScalars, committedScalars, generators, blindGenerators, domain, hmessages, hcommitted,
    hgenerators, hblind, hdomain, ?_⟩
  rw [append_assoc, append_assoc]
  exact hpairing

omit [DecidableEq G₂] [DecidableEq GT] in
theorem proofGenWithNymImpl_eq {generators blindGenerators : List G₁} {domain : ZMod p} {contextId : List UInt8}
    {r : ProofRandomScalars p} {P : ProofParts p G₁} {pseudonym : G₁}
    (hmessages : messagesToScalarsWithApiId hash messages cs.pseudonymApiId cs = .ok messageScalars)
    (hcommitted : messagesToScalarsWithApiId hash committedMessages cs.pseudonymApiId cs = .ok committedScalars)
    (hgenerators : createGeneratorsWithApiId S (messages.length + 1) cs.pseudonymApiId cs = .ok generators)
    (hblind : createGeneratorsWithApiId S (committedMessages.length + 2) (pseudonymBlindGeneratorsApiId cs) cs =
    .ok blindGenerators) (hdomain : calculateDomainWithApiId S hash pk ((generators ++ blindGenerators).getD 0 0)
    ((generators ++ blindGenerators).drop 1) header cs.pseudonymApiId cs = .ok domain)
    (hlt : ∀ i ∈ disclosedIndexes, i < messages.length)
    (hltCommitted : ∀ j ∈ disclosedCommittedIndexes, j < committedMessages.length)
    (hcore : proofGenCore S hash signature ((generators ++ blindGenerators).getD 0 0)
    ((generators ++ blindGenerators).drop 1)
    (messageScalars ++ [secretProverBlind] ++ committedScalars ++ [nymSecret]) domain presentationHeader
    (nymIndexes messages.length disclosedIndexes disclosedCommittedIndexes) r
    (some (calculatePseudonymGeneratorWithApiId S contextId cs.pseudonymApiId)) cs.pseudonymApiId cs =
    .ok (serializeProof S P, some pseudonym)) : proofGenWithNymImpl S hash pk signature header presentationHeader
    nymSecret contextId messages disclosedIndexes committedMessages disclosedCommittedIndexes secretProverBlind r
    cs = .ok (serializeProof S P, pseudonym) := by
  have hrange : disclosedIndexes.any (fun i => decide (i ≥ messages.length)) = false := by
    rw [any_eq_false]
    intro i hi
    have h := hlt i hi
    simpa using h
  have hrangeCommitted : disclosedCommittedIndexes.any (fun j => decide (j ≥ committedMessages.length)) = false := by
    rw [any_eq_false]
    intro j hj
    have h := hltCommitted j hj
    simpa using h
  unfold proofGenWithNymImpl
  dsimp only
  rw [hrange, hrangeCommitted, hmessages, hcommitted, hgenerators, hblind]
  show (calculateDomainWithApiId S hash pk _ _ header cs.pseudonymApiId cs >>= _) = _
  rw [hdomain, ok_bind, hcore]
  rfl

theorem proofVerifyWithNym_eq {generators blindGenerators : List G₁} {domain : ZMod p} {contextId : List UInt8}
    {P : ProofParts p G₁} {pseudonym : G₁}
    (hmessages : messagesToScalarsWithApiId hash messages (pseudonymApiId .bls12381Sha256)
    .bls12381Sha256 = .ok messageScalars) (hcommitted : messagesToScalarsWithApiId hash committedMessages
    (pseudonymApiId .bls12381Sha256) .bls12381Sha256 = .ok committedScalars)
    (hgenerators : createGeneratorsWithApiId S (messages.length + 1) (pseudonymApiId .bls12381Sha256)
    .bls12381Sha256 = .ok generators) (hblind : createGeneratorsWithApiId S (committedMessages.length + 2)
    (pseudonymBlindGeneratorsApiId .bls12381Sha256) .bls12381Sha256 = .ok blindGenerators)
    (hdomain : calculateDomainWithApiId S hash pk ((generators ++ blindGenerators).getD 0 0)
    ((generators ++ blindGenerators).drop 1) header (pseudonymApiId .bls12381Sha256) .bls12381Sha256 =
    .ok domain) (hlt : ∀ i ∈ disclosedIndexes, i < messages.length)
    (hltCommitted : ∀ j ∈ disclosedCommittedIndexes, j < committedMessages.length) (hnd : disclosedIndexes.Nodup)
    (hndCommitted : disclosedCommittedIndexes.Nodup)
    (hmHats : P.mHats.length =
    (undisclosedIndexes (messages.length + committedMessages.length + 2)
    (nymIndexes messages.length disclosedIndexes disclosedCommittedIndexes)).length) : proofVerifyWithNym S hash pk
    (serializeProof S P) header presentationHeader pseudonym contextId messages.length
    (messagesAt messages disclosedIndexes) disclosedIndexes
    (messagesAt committedMessages disclosedCommittedIndexes) disclosedCommittedIndexes .bls12381Sha256 =
    proofVerifyCore S hash pk (serializeProof S P) ((generators ++ blindGenerators).getD 0 0)
    ((generators ++ blindGenerators).drop 1)
    (nymIndexes messages.length disclosedIndexes disclosedCommittedIndexes)
    (scalarsAt messageScalars disclosedIndexes ++ scalarsAt committedScalars disclosedCommittedIndexes) domain
    presentationHeader
    (some (calculatePseudonymGeneratorWithApiId S contextId (pseudonymApiId .bls12381Sha256),
    pseudonym)) (pseudonymApiId .bls12381Sha256) .bls12381Sha256 := by
  have hlt' := nymIndexes_lt hlt hltCommitted
  have hnd' := nymIndexes_nodup hlt hnd hndCommitted
  have hcount := @serializeProof_undisclosed _ _ _ _ _ _ _ _ _ _ _ S _ _ _
    (fun i hi => Nat.lt_succ_of_lt (hlt' i hi)) hnd' hmHats
  have hle := length_le_of_lt hlt' hnd'
  have hindexes : (nymIndexes messages.length disclosedIndexes disclosedCommittedIndexes).length =
      disclosedIndexes.length + disclosedCommittedIndexes.length := by
    unfold nymIndexes
    rw [length_append, length_map]
  rw [hindexes] at hcount hle
  unfold proofVerifyWithNym
  dsimp only
  rw [show octetPointLength .bls12381Sha256 = 48 from rfl,
    show octetScalarLength .bls12381Sha256 = 32 from rfl, hcount,
    if_neg (by rw [length_serializeProof]; omega)]
  show ((if _ then _ else _) : Except BbsError Bool) = _
  rw [if_neg (by omega), hgenerators, ok_bind, show disclosedIndexes.length + disclosedCommittedIndexes.length +
      (messages.length + committedMessages.length + 2 -
        (disclosedIndexes.length + disclosedCommittedIndexes.length)) -
      (messages.length + 1) + 1 = committedMessages.length + 2 by omega, hblind, ok_bind,
    messagesToScalars_messagesAt hmessages hlt, ok_bind, messagesToScalars_messagesAt hcommitted hltCommitted,
      ok_bind,
    hdomain, ok_bind]

theorem proofVerifyWithNym_proofGenWithNym (hhash : ∀ data dst, ∃ s, hash data dst .bls12381Sha256 = .ok s)
    {contextId : List UInt8} {r : ProofRandomScalars p}
    (hverified : blindVerifyWithNym S hash pk signature header messages committedMessages proverNym
    signerNymEntropy secretProverBlind .bls12381Sha256 = .ok true)
    (hlt : ∀ i ∈ disclosedIndexes, i < messages.length) (hnd : disclosedIndexes.Nodup)
    (hltCommitted : ∀ j ∈ disclosedCommittedIndexes, j < committedMessages.length)
    (hndCommitted : disclosedCommittedIndexes.Nodup)
    (hr : r.Sampled
    (messages.length + committedMessages.length + 2 -
    (disclosedIndexes.length + disclosedCommittedIndexes.length)))
    (hpseudonym : (proverNym + signerNymEntropy) • calculatePseudonymGeneratorWithApiId S contextId
    (pseudonymApiId .bls12381Sha256) ≠ 0) : ∃ P : ProofParts p G₁, proofGenWithNymImpl S hash pk
    signature header presentationHeader (proverNym + signerNymEntropy) contextId messages disclosedIndexes
    committedMessages disclosedCommittedIndexes secretProverBlind r .bls12381Sha256 =
    .ok (serializeProof S P, (proverNym + signerNymEntropy) • calculatePseudonymGeneratorWithApiId S contextId
    (pseudonymApiId .bls12381Sha256)) ∧ (∃ data dst, hash data dst .bls12381Sha256 = .ok P.challenge) ∧
    (P.challenge ≠ 0 → proofVerifyWithNym S hash pk (serializeProof S P) header presentationHeader
    ((proverNym + signerNymEntropy) • calculatePseudonymGeneratorWithApiId S contextId
    (pseudonymApiId .bls12381Sha256)) contextId messages.length (messagesAt messages disclosedIndexes)
    disclosedIndexes (messagesAt committedMessages disclosedCommittedIndexes) disclosedCommittedIndexes
    .bls12381Sha256 = .ok true) := by
  obtain ⟨hpk, messageScalars, committedScalars, generators, blindGenerators, domain, hmessages, hcommitted,
    hgenerators, hblind, hdomain, hpairing⟩ := blindVerifyWithNym_eq_true hverified
  obtain ⟨sk, rfl⟩ := S.group.cyclic₂ pk
  have hlength := (messagesToScalarsWithApiId_getD hmessages).1
  have hlengthCommitted := (messagesToScalarsWithApiId_getD hcommitted).1
  -- the secret of the pseudonym comes last and is never disclosed
  have hlengthInit : (messageScalars ++ [secretProverBlind] ++ committedScalars).length =
      messages.length + committedMessages.length + 1 := by
    rw [length_append, length_append, hlength, hlengthCommitted, length_singleton]
    omega
  have hlengthFull : (messageScalars ++ [secretProverBlind] ++ committedScalars ++
      [proverNym + signerNymEntropy]).length = messages.length + committedMessages.length + 2 := by
    rw [length_append, hlengthInit]
    rfl
  have hlen : (messageScalars ++ [secretProverBlind] ++ committedScalars ++ [proverNym + signerNymEntropy]).length =
      ((generators ++ blindGenerators).drop 1).length := by
    rw [hlengthFull, length_drop, length_append, length_createGeneratorsWithApiId hgenerators,
      length_createGeneratorsWithApiId hblind]
    omega
  have hlt' := nymIndexes_lt hlt hltCommitted
  have hnd' := nymIndexes_nodup hlt hnd hndCommitted
  have hindexes : (nymIndexes messages.length disclosedIndexes disclosedCommittedIndexes).length =
      disclosedIndexes.length + disclosedCommittedIndexes.length := by
    unfold nymIndexes
    rw [length_append, length_map]
  have hle := length_le_of_lt hlt' hnd'
  have hundisclosed : (undisclosedIndexes (messageScalars ++ [secretProverBlind] ++ committedScalars ++
      [proverNym + signerNymEntropy]).length
      (nymIndexes messages.length disclosedIndexes disclosedCommittedIndexes)).length =
      messages.length + committedMessages.length + 2 -
        (disclosedIndexes.length + disclosedCommittedIndexes.length) := by
    rw [length_undisclosedIndexes (fun i hi => by have h := hlt' i hi; omega) hnd', hlengthFull, hindexes]
  rw [← hundisclosed] at hr
  -- so the pseudonym is committed to with the last blinding scalar
  obtain ⟨ut, hterms⟩ := @proverNymTerms_nymIndexes _ _ _ _ _ (proverNym + signerNymEntropy) _
    (nymIndexes messages.length disclosedIndexes disclosedCommittedIndexes)
    (messageScalars ++ [secretProverBlind] ++ committedScalars) r _ (by rwa [hlengthInit]) hr (by omega) _ hpseudonym
  obtain ⟨P, hgen, hmHats, hchallenge, hverify⟩ := @proofVerifyCore_proofGenCore _ _ _ _ _ _ _ _ _ _ _ S _ _ _ hash
    ((generators ++ blindGenerators).getD 0 0) ((generators ++ blindGenerators).drop 1)
    (nymIndexes messages.length disclosedIndexes disclosedCommittedIndexes)
    (messageScalars ++ [secretProverBlind] ++ committedScalars ++ [proverNym + signerNymEntropy]) domain
    presentationHeader (pseudonymApiId .bls12381Sha256) signature r sk _ _ hpk
    ((verifySignaturePairing_key S sk signature _).1 hpairing).symm
    (by rw [← hlen, hlengthFull]; exact fun i hi => Nat.lt_succ_of_lt (hlt' i hi)) hnd' hlen hr.r2 hterms hhash
  refine ⟨P, ?_, hchallenge, fun hne => ?_⟩
  · exact proofGenWithNymImpl_eq hmessages hcommitted hgenerators hblind hdomain hlt hltCommitted hgen
  · have hsecret : (messageScalars ++ [secretProverBlind] ++ committedScalars ++ [proverNym + signerNymEntropy]).getD
        ((messageScalars ++ [secretProverBlind] ++ committedScalars ++
          [proverNym + signerNymEntropy]).length - 1) 0 =
        proverNym + signerNymEntropy := by
      simp [getD_eq_getElem?_getD]
    rw [hlengthFull] at hmHats
    rw [proofVerifyWithNym_eq hmessages hcommitted hgenerators hblind hdomain hlt hltCommitted hnd hndCommitted
      hmHats]
    have haccepted := hverify hne
    rw [hsecret, scalarsAt_nymIndexes hlt hltCommitted hlength hlengthCommitted] at haccepted
    exact haccepted

end Nym

/-! ## Completeness -/

section Complete

variable [DecidableEq G₁] [DecidableEq G₂] [DecidableEq GT]
  (hhash : ∀ data dst, ∃ s, hash data dst .bls12381Sha256 = .ok s)
include hhash

/-- Both kinds of proof are complete, for every list of disclosed indexes: an honest proof is accepted unless its
challenge is zero. A plain signature is refused only where `SK + e` is zero. -/
theorem proofs_complete :
    (∀ sk header presentationHeader (messages : List (List UInt8)) (disclosedIndexes : List ℕ) r, sk ≠ 0 →
      messages.length < maxGenerators → (∀ i ∈ disclosedIndexes, i < messages.length) → disclosedIndexes.Nodup →
      r.Sampled (messages.length - disclosedIndexes.length) →
      coreSign S hash sk (sk • S.group.gen) header messages .bls12381Sha256 =
          .error (.crypto "SK + e has no inverse") ∨
        ∃ signature P, coreSign S hash sk (sk • S.group.gen) header messages .bls12381Sha256 = .ok signature ∧
          coreProofGen S hash (sk • S.group.gen) signature header presentationHeader messages disclosedIndexes r
            .bls12381Sha256 = .ok (serializeProof S P) ∧
          (∃ data dst, hash data dst .bls12381Sha256 = .ok P.challenge) ∧ (P.challenge ≠ 0 →
            coreProofVerify S hash (sk • S.group.gen) (serializeProof S P) header presentationHeader
              (messagesAt messages disclosedIndexes) disclosedIndexes .bls12381Sha256 = .ok true)) ∧
    (∀ pk signature header presentationHeader contextId (messages committedMessages : List (List UInt8))
        (disclosedIndexes disclosedCommittedIndexes : List ℕ) proverNym signerNymEntropy secretProverBlind r,
      blindVerifyWithNym S hash pk signature header messages committedMessages proverNym signerNymEntropy
        secretProverBlind .bls12381Sha256 = .ok true →
      (∀ i ∈ disclosedIndexes, i < messages.length) → disclosedIndexes.Nodup →
      (∀ j ∈ disclosedCommittedIndexes, j < committedMessages.length) → disclosedCommittedIndexes.Nodup →
      r.Sampled (messages.length + committedMessages.length + 2 -
        (disclosedIndexes.length + disclosedCommittedIndexes.length)) → (proverNym + signerNymEntropy) •
        calculatePseudonymGeneratorWithApiId S contextId (pseudonymApiId .bls12381Sha256) ≠ 0 →
      ∃ P : ProofParts p G₁,
        proofGenWithNymImpl S hash pk signature header presentationHeader (proverNym + signerNymEntropy) contextId
          messages disclosedIndexes committedMessages disclosedCommittedIndexes secretProverBlind r .bls12381Sha256 =
          .ok (serializeProof S P, (proverNym + signerNymEntropy) •
            calculatePseudonymGeneratorWithApiId S contextId (pseudonymApiId .bls12381Sha256)) ∧
        (∃ data dst, hash data dst .bls12381Sha256 = .ok P.challenge) ∧ (P.challenge ≠ 0 →
          proofVerifyWithNym S hash pk (serializeProof S P) header presentationHeader
            ((proverNym + signerNymEntropy) •
              calculatePseudonymGeneratorWithApiId S contextId (pseudonymApiId .bls12381Sha256))
            contextId messages.length (messagesAt messages disclosedIndexes) disclosedIndexes
            (messagesAt committedMessages disclosedCommittedIndexes) disclosedCommittedIndexes .bls12381Sha256 =
            .ok true)) := by
  constructor
  · intro sk header presentationHeader messages disclosedIndexes r hsk hmessages hlt hnd hr
    exact coreProofVerify_coreProofGen hhash hsk hmessages hlt hnd hr
  · intro pk signature header presentationHeader contextId messages committedMessages disclosedIndexes
      disclosedCommittedIndexes proverNym signerNymEntropy secretProverBlind r hverified hlt hnd hltCommitted
        hndCommitted
      hr hpseudonym
    exact proofVerifyWithNym_proofGenWithNym hhash hverified hlt hnd hltCommitted hndCommitted hr hpseudonym

end Complete

def onesScalars (u : ℕ) : ProofRandomScalars 3 := ⟨1, 1, 1, 1, 1, List.replicate u 1⟩

theorem onesScalars_sampled (u : ℕ) : (onesScalars u).Sampled u := by
  have hne : (1 : ZMod 3) ≠ 0 := by decide
  constructor
  · exact hne
  · exact hne
  · exact hne
  · exact hne
  · exact hne
  · intro m hm
    rw [eq_of_mem_replicate hm]
    exact hne
  · exact length_replicate

/-- Proofs that disclose the second of two messages, and one message of each side. -/
theorem proofs_complete_residues :
    (∃ signature P,
      coreSign suiteThree (constantHash 1) 1 ((1 : ZMod 3) • suiteThree.group.gen) [] [[], [1]] .bls12381Sha256 =
        .ok signature ∧
      coreProofGen suiteThree (constantHash 1) ((1 : ZMod 3) • suiteThree.group.gen) signature [] [] [[], [1]] [1]
        (onesScalars 1) .bls12381Sha256 = .ok (serializeProof suiteThree P) ∧
      coreProofVerify suiteThree (constantHash 1) ((1 : ZMod 3) • suiteThree.group.gen)
        (serializeProof suiteThree P) [] [] [[1]] [1] .bls12381Sha256 = .ok true) ∧
    ∃ P : ProofParts 3 (ZMod 3),
      proofGenWithNymImpl suiteThree (constantHash 1) 1 ⟨1, 0⟩ [] [] 1 [] [[]] [0] [[]] [0] 2 (onesScalars 2)
        .bls12381Sha256 = .ok (serializeProof suiteThree P, 1) ∧
      proofVerifyWithNym suiteThree (constantHash 1) 1 (serializeProof suiteThree P) [] [] 1 [] 1 [[]] [0] [[]] [0]
        .bls12381Sha256 = .ok true := by
  obtain ⟨hplain, hnym⟩ := @proofs_complete _ _ _ _ _ _ _ _ _ _ _ suiteThree (constantHash 1) _ _ _
    fun _ _ => ⟨1, rfl⟩
  have hchallenge : ∀ P : ProofParts 3 (ZMod 3),
      (∃ data dst, constantHash 1 data dst .bls12381Sha256 = .ok P.challenge) → P.challenge ≠ 0 := by
    rintro P ⟨data, dst, h⟩
    rw [← Except.ok.inj h]
    decide
  constructor
  · rcases hplain 1 [] [] [[], [1]] [1] (onesScalars 1) (by decide) (by decide) (by decide) (by decide)
        (onesScalars_sampled 1) with hfail | ⟨signature, P, hsign, hgen, hhashed, hverify⟩
    · exact absurd hfail (by decide +kernel)
    · exact ⟨signature, P, hsign, hgen, hverify (hchallenge P hhashed)⟩
  · obtain ⟨P, hgen, hhashed, hverify⟩ := hnym 1 ⟨1, 0⟩ [] [] [] [[]] [[]] [0] [0] 1 0 2 (onesScalars 2)
      (by decide +kernel) (by decide) (by decide) (by decide) (by decide) (onesScalars_sampled 2) (by decide)
    exact ⟨P, hgen, hverify (hchallenge P hhashed)⟩

end AffinidiTdk.Bbs
