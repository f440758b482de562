/-
Blind issuance is complete: the issuer reads the holder's commitment as it was written and accepts its proof, and the
signature that comes of it is one over all messages. Holder and issuer sum up the same point from different ends.
-/
import AffinidiTdk.Bbs.Blind
import AffinidiTdk.Bbs.Completeness
import AffinidiTdk.Bbs.Soundness
import AffinidiTdk.Lib.Combination

namespace AffinidiTdk.Bbs

open List Ciphersuite
open Bilinear Combination Fallible

variable {p : ℕ} [Fact p.Prime] {G₁ G₂ GT : Type} [AddCommGroup G₁] [Module (ZMod p) G₁]
  [AddCommGroup G₂] [Module (ZMod p) G₂] [AddCommGroup GT] [Module (ZMod p) GT]
  {S : Suite p G₁ G₂ GT} {hash : HashToScalar p} {apiId : List UInt8} {cs : Ciphersuite}

/-! ## The sums -/

section Sums

variable {q1 : G₁} {hGenerators generators blindGenerators : List G₁}

theorem computeB_eq_combine {msgScalars : List (ZMod p)} (h : msgScalars.length ≤ hGenerators.length)
    (domain : ZMod p) :
    computeB S q1 domain hGenerators msgScalars = S.p1Generator + domain • q1 + combine msgScalars hGenerators :=
  foldl_zipIdx h _

theorem blindSum_eq_combine {scalars : List (ZMod p)} (h : blindGenerators.length = scalars.length + 1)
    (blind : ZMod p) : blindSum blindGenerators blind scalars = combine (blind :: scalars) blindGenerators := by
  cases blindGenerators with
  | nil => simp at h
  | cons q2 j =>
    rw [combine_cons]
    exact foldl_zipIdx (by simpa using h.ge) _

theorem issuerB_eq_combine {messageScalars : List (ZMod p)} (h : generators.length = messageScalars.length + 1)
    (commitment : G₁) :
    issuerB S generators commitment messageScalars =
      S.p1Generator + combine messageScalars (generators.drop 1) + commitment := by
  unfold issuerB
  dsimp only
  rw [foldl_zipIdx (by rw [length_drop]; omega)]

end Sums

/-! ## Hashes and generators -/

section Inputs

theorem length_createGeneratorsWithApiId {n : ℕ} {generators : List G₁}
    (h : createGeneratorsWithApiId S n apiId cs = .ok generators) : generators.length = n := by
  have hloop : ∀ (seedDst generatorDst : List UInt8) (len : ℕ) (counters : List ℕ) (v : List UInt8),
      (generatorLoop S seedDst generatorDst len counters v).length = counters.length := by
    intro seedDst generatorDst len counters
    induction counters with
    | nil => exact fun v => rfl
    | cons i rest ih => exact fun v => congrArg (· + 1) (ih _)
  unfold createGeneratorsWithApiId at h
  obtain ⟨-, -, h⟩ := bind_eq_ok_iff.1 h
  obtain ⟨-, h⟩ := guard_eq_ok_iff.1 h
  obtain rfl := pure_eq_ok_iff.1 h
  rw [hloop, length_range']

theorem createGeneratorsWithApiId_ok {n : ℕ} (hn : n ≤ maxGenerators) :
    ∃ generators, createGeneratorsWithApiId S n apiId .bls12381Sha256 = .ok generators := by
  unfold createGeneratorsWithApiId
  rw [show bls12381Sha256.ensureSupported = .ok () from rfl, ok_bind]
  dsimp only
  rw [if_neg (by omega)]
  exact ⟨_, rfl⟩

omit [Fact (Nat.Prime p)] in
theorem messagesToScalarsWithApiId_ok (hhash : ∀ data dst, ∃ s, hash data dst cs = .ok s)
    (messages : List (List UInt8)) :
    ∃ scalars, messagesToScalarsWithApiId hash messages apiId cs = .ok scalars := by
  unfold messagesToScalarsWithApiId
  induction messages with
  | nil => exact ⟨[], rfl⟩
  | cons message messages ih =>
    obtain ⟨s, hs⟩ := hhash message (apiId ++ ascii "MAP_MSG_TO_SCALAR_AS_HASH_")
    obtain ⟨scalars, hscalars⟩ := ih
    exact ⟨s :: scalars, by rw [mapM_cons, hs, ok_bind, hscalars]; rfl⟩

theorem messagesToScalarsWithApiId_getD {messages : List (List UInt8)} {scalars : List (ZMod p)}
    (h : messagesToScalarsWithApiId hash messages apiId cs = .ok scalars) :
    scalars.length = messages.length ∧ ∀ i < messages.length,
      hash (messages.getD i []) (apiId ++ ascii "MAP_MSG_TO_SCALAR_AS_HASH_") cs = .ok (scalars.getD i 0) := by
  unfold messagesToScalarsWithApiId at h
  induction messages generalizing scalars with
  | nil =>
    cases h
    exact ⟨rfl, fun i hi => absurd hi (Nat.not_lt_zero i)⟩
  | cons message messages ih =>
    rw [mapM_cons] at h
    obtain ⟨s, hs, h⟩ := bind_eq_ok_iff.1 h
    obtain ⟨rest, hrest, h⟩ := bind_eq_ok_iff.1 h
    obtain rfl := pure_eq_ok_iff.1 h
    obtain ⟨hlength, hget⟩ := ih hrest
    refine ⟨congrArg (· + 1) hlength, fun i hi => ?_⟩
    cases i with
    | zero => exact hs
    | succ i => exact hget i (Nat.lt_of_succ_lt_succ hi)

end Inputs

/-! ## The commitment -/

section Commitment

variable {blindGenerators : List G₁} {committedScalars randomScalars : List (ZMod p)}

/-- The responses of the commitment's proof, and its challenge. -/
def commitmentProof (committedScalars randomScalars : List (ZMod p)) (challenge : ZMod p) : List (ZMod p) :=
  List.zipWith (fun t x => t + x * challenge) (randomScalars.drop 1) (randomScalars.getD 0 0 :: committedScalars) ++
    [challenge]

variable (hgenerators : blindGenerators.length = committedScalars.length + 1)
  (hrandom : randomScalars.length = committedScalars.length + 2)
include hrandom

theorem length_commitmentProof (challenge : ZMod p) :
    (commitmentProof committedScalars randomScalars challenge).length = committedScalars.length + 2 := by
  simp [commitmentProof, hrandom]

theorem drop_randomScalars : randomScalars.drop 1 = randomScalars.getD 1 0 :: randomScalars.drop 2 := by
  have h1 : 1 < randomScalars.length := by omega
  rw [drop_eq_getElem_cons h1]
  simp [getD_eq_getElem?_getD, h1]

include hgenerators

theorem coreCommit_eq {challenge : ZMod p}
    (hchallenge : calculateBlindChallenge S hash
      (combine (randomScalars.getD 0 0 :: committedScalars) blindGenerators)
      (combine (randomScalars.drop 1) blindGenerators) blindGenerators apiId cs = .ok challenge) :
    coreCommit S hash committedScalars blindGenerators apiId randomScalars cs =
      .ok (commitmentWithProofToOctets S (combine (randomScalars.getD 0 0 :: committedScalars) blindGenerators)
        (commitmentProof committedScalars randomScalars challenge), randomScalars.getD 0 0) := by
  have hmTildes : blindGenerators.length = (randomScalars.drop 2).length + 1 := by
    rw [length_drop, hrandom, hgenerators]
    omega
  have hdrop := drop_randomScalars hrandom
  unfold coreCommit
  rw [if_neg (not_not.2 hgenerators)]
  dsimp only
  rw [blindSum_eq_combine hgenerators, blindSum_eq_combine hmTildes, ← hdrop, hchallenge, ok_bind]
  unfold commitmentProof
  rw [hdrop]
  rfl

theorem coreCommitVerify_commitmentProof {challenge : ZMod p}
    (hchallenge : calculateBlindChallenge S hash
      (combine (randomScalars.getD 0 0 :: committedScalars) blindGenerators)
      (combine (randomScalars.drop 1) blindGenerators) blindGenerators apiId cs = .ok challenge) :
    coreCommitVerify S hash (combine (randomScalars.getD 0 0 :: committedScalars) blindGenerators)
      (commitmentProof committedScalars randomScalars challenge) blindGenerators apiId cs = .ok true := by
  have hlength : (randomScalars.drop 1).length = (randomScalars.getD 0 0 :: committedScalars).length := by
    rw [length_drop, hrandom]
    rfl
  have hsum := @combine_responses _ _ _ _ _ _ _ blindGenerators challenge hlength
  unfold commitmentProof
  cases hresponses : List.zipWith (fun t x => t + x * challenge) (randomScalars.drop 1)
      (randomScalars.getD 0 0 :: committedScalars) with
  | nil =>
    rw [drop_randomScalars hrandom] at hresponses
    cases hresponses
  | cons sHat mHats =>
    have hmHats : mHats.length = committedScalars.length := by
      have h := congrArg List.length hresponses
      rw [length_zipWith, hlength, Nat.min_self] at h
      exact (Nat.succ_inj.1 h).symm
    rw [hresponses] at hsum
    have hlast : (sHat :: mHats ++ [challenge]).getD ((sHat :: mHats ++ [challenge]).length - 1) 0 = challenge := by
      simp [getD_eq_getElem?_getD]
    have hbetween : ((sHat :: mHats ++ [challenge]).drop 1).dropLast = mHats := dropLast_concat
    unfold coreCommitVerify
    rw [hlast, hbetween]
    dsimp only
    rw [if_neg (not_not.2 (hgenerators.trans (congrArg (· + 1) hmHats.symm)))]
    rw [cons_append, getD_cons_zero, blindSum_eq_combine (hgenerators.trans (congrArg (· + 1) hmHats.symm)),
      hsum, add_sub_cancel_right, hchallenge]
    show Except.ok (decide (challenge = challenge)) = _
    rw [decide_eq_true rfl]

end Commitment

/-! ## The octets of a commitment -/

section Octets

variable {commitment : G₁} {proof : List (ZMod p)}

theorem length_commitmentWithProofToOctets :
    (commitmentWithProofToOctets S commitment proof).length = 48 + 32 * proof.length := by
  unfold commitmentWithProofToOctets
  rw [length_append, S.codec.point_length, length_flatMap_scalarToBytes]

theorem readCommitmentScalars_append {bytes : List UInt8} (before : List UInt8)
    (h : bytes = before ++ proof.flatMap S.codec.scalarToBytes) (hne : ∀ s ∈ proof, s ≠ 0) {fuel idx : ℕ}
    (hidx : before.length = idx) (hfuel : proof.length ≤ fuel) :
    readCommitmentScalars S bytes 32 fuel idx = .ok (proof, bytes.length) := by
  induction proof generalizing before fuel idx with
  | nil =>
    have hend : bytes.length = idx := by rw [h, ← hidx, flatMap_nil, append_nil]
    rw [hend]
    cases fuel with
    | zero => rfl
    | succ fuel =>
      unfold readCommitmentScalars
      rw [if_neg (by omega)]
  | cons s proof ih =>
    cases fuel with
    | zero => simp at hfuel
    | succ fuel =>
      have hlen := S.codec.scalar_length s
      have hrest := ih (before ++ S.codec.scalarToBytes s) (by rw [h, flatMap_cons, append_assoc])
        (fun t ht => hne t (mem_cons_of_mem _ ht)) (show _ = idx + 32 by rw [length_append, hlen, hidx])
        (Nat.le_of_succ_le_succ hfuel)
      have hread : (bytes.drop idx).take 32 = S.codec.scalarToBytes s := by
        rw [h, ← hidx, drop_left, flatMap_cons, take_left' hlen]
      have hbound : idx + 32 ≤ bytes.length := by
        rw [h, flatMap_cons, length_append, length_append, hlen, hidx]
        omega
      unfold readCommitmentScalars
      rw [if_pos hbound, hread, S.codec.scalar_decode]
      dsimp only
      rw [if_neg (hne s mem_cons_self), hrest]
      rfl

theorem commitmentWithProofToOctets_inj {commitment' : G₁} {proof' : List (ZMod p)}
    (h : commitmentWithProofToOctets S commitment proof = commitmentWithProofToOctets S commitment' proof') :
    commitment = commitment' ∧ proof = proof' := by
  obtain ⟨hpoint, hscalars⟩ := append_inj h (by rw [S.codec.point_length, S.codec.point_length])
  constructor
  · have hdecoded := congrArg S.codec.pointFromBytes hpoint
    rw [S.codec.point_decode, S.codec.point_decode] at hdecoded
    exact Option.some.inj hdecoded
  · clear h hpoint
    induction proof generalizing proof' with
    | nil =>
      cases proof' with
      | nil => rfl
      | cons t proof' =>
        have hlength := congrArg List.length hscalars
        rw [length_flatMap_scalarToBytes, length_flatMap_scalarToBytes, length_nil, length_cons] at hlength
        omega
    | cons s proof ih =>
      cases proof' with
      | nil =>
        have hlength := congrArg List.length hscalars
        rw [length_flatMap_scalarToBytes, length_flatMap_scalarToBytes, length_nil, length_cons] at hlength
        omega
      | cons t proof' =>
        rw [flatMap_cons, flatMap_cons] at hscalars
        obtain ⟨hhead, htail⟩ := append_inj hscalars (by rw [S.codec.scalar_length, S.codec.scalar_length])
        have hdecoded := congrArg S.codec.scalarFromBytes hhead
        rw [S.codec.scalar_decode, S.codec.scalar_decode] at hdecoded
        rw [Option.some.inj hdecoded, ih htail]

variable [DecidableEq G₁]

theorem octetsToCommitmentWithProof_commitmentWithProofToOctets (hcommitment : commitment ≠ 0)
    (hproof : ∀ s ∈ proof, s ≠ 0) (hlength : 2 ≤ proof.length) :
    octetsToCommitmentWithProof S (commitmentWithProofToOctets S commitment proof) .bls12381Sha256 =
      .ok (commitment, proof) := by
  have hoctets := @length_commitmentWithProofToOctets _ _ _ _ _ _ _ _ _ _ _ S commitment proof
  have hscalars := readCommitmentScalars_append (S.codec.pointToBytes commitment)
    (show commitmentWithProofToOctets S commitment proof = _ from rfl) hproof (S.codec.point_length commitment)
    (show proof.length ≤ (commitmentWithProofToOctets S commitment proof).length by omega)
  have hpoint : (commitmentWithProofToOctets S commitment proof).take 48 = S.codec.pointToBytes commitment :=
    take_left' (S.codec.point_length commitment)
  unfold octetsToCommitmentWithProof
  dsimp only
  rw [show octetPointLength .bls12381Sha256 = 48 from rfl,
    show octetScalarLength .bls12381Sha256 = 32 from rfl, if_neg (by omega), hpoint,
      S.codec.point_decode, hscalars]
  show ((if commitment = 0 then _ else _) : Except BbsError _) = _
  rw [if_neg hcommitment]
  show ((if _ then _ else if proof.length < 2 then _ else _) : Except BbsError _) = _
  rw [if_neg (not_not.2 rfl), if_neg (by omega)]
  rfl

omit [DecidableEq G₁] in
theorem blindMessageCount_commitmentWithProofToOctets {m : ℕ} (hlength : proof.length = m + 2) :
    blindMessageCount (commitmentWithProofToOctets S commitment proof).length .bls12381Sha256 = .ok m := by
  rw [length_commitmentWithProofToOctets, hlength]
  unfold blindMessageCount
  rw [if_neg (by omega)]
  dsimp only
  rw [show octetPointLength .bls12381Sha256 = 48 from rfl,
    show octetScalarLength .bls12381Sha256 = 32 from rfl, if_neg (by omega)]
  exact congrArg Except.ok (by omega)

end Octets

/-! ## Signing -/

section Signing

variable [DecidableEq G₁] {blindGenerators : List G₁} {committedScalars randomScalars : List (ZMod p)}

theorem deserializeAndValidateCommit_commitmentProof
    (hgenerators : blindGenerators.length = committedScalars.length + 1)
    (hrandom : randomScalars.length = committedScalars.length + 2) {challenge : ZMod p}
    (hchallenge : calculateBlindChallenge S hash
      (combine (randomScalars.getD 0 0 :: committedScalars) blindGenerators)
      (combine (randomScalars.drop 1) blindGenerators) blindGenerators apiId .bls12381Sha256 = .ok challenge)
    (hcommitment : combine (randomScalars.getD 0 0 :: committedScalars) blindGenerators ≠ 0)
    (hproof : ∀ s ∈ commitmentProof committedScalars randomScalars challenge, s ≠ 0) :
    deserializeAndValidateCommit S hash
      (commitmentWithProofToOctets S (combine (randomScalars.getD 0 0 :: committedScalars) blindGenerators)
        (commitmentProof committedScalars randomScalars challenge)) blindGenerators apiId .bls12381Sha256 =
      .ok (combine (randomScalars.getD 0 0 :: committedScalars) blindGenerators) := by
  have hlength := length_commitmentProof hrandom challenge
  have hread := @octetsToCommitmentWithProof_commitmentWithProofToOctets _ _ _ _ _ _ _ _ _ _ _ S _ _ _ hcommitment
    hproof (by omega)
  have hverify := coreCommitVerify_commitmentProof hgenerators hrandom hchallenge
  have hnonempty := @length_commitmentWithProofToOctets _ _ _ _ _ _ _ _ _ _ _ S
    (combine (randomScalars.getD 0 0 :: committedScalars) blindGenerators)
    (commitmentProof committedScalars randomScalars challenge)
  unfold deserializeAndValidateCommit
  rw [if_neg (by rw [isEmpty_iff_length_eq_zero]; omega), hread, ok_bind]
  dsimp only
  rw [if_neg (by omega), hverify]
  rfl

variable [DecidableEq G₂] [DecidableEq GT] {generators : List G₁} {messageScalars : List (ZMod p)} {sk : ZMod p}
  {b : G₁} {header blindApiId : List UInt8}

omit [DecidableEq G₂] in
/-- A signature over `B` is one over the messages that the issuer and the holder put into it. -/
theorem finalizeBlindSign_verified (hhash : ∀ data dst, ∃ s, hash data dst cs = .ok s)
    (hgenerators : createGeneratorsWithApiId S (messageScalars.length + 1) apiId cs = .ok generators)
    (hblind : createGeneratorsWithApiId S committedScalars.length blindApiId cs = .ok blindGenerators)
    (hb : b = S.p1Generator + combine messageScalars (generators.drop 1) + combine committedScalars
    blindGenerators) (hfinal : ∀ domain e, calculateDomainWithApiId S hash (sk • S.group.gen) (generators.getD 0 0)
    (generators.drop 1 ++ blindGenerators) header apiId cs = .ok domain → blindSignatureE S hash sk
    (b + domain • generators.getD 0 0) apiId cs = .ok e → b + domain • generators.getD 0 0 ≠ 0 ∧ sk + e ≠ 0) :
    ∃ signature, finalizeBlindSign S hash sk (sk • S.group.gen) b generators blindGenerators header apiId cs =
    .ok signature ∧ signature.a ≠ 0 ∧ verifyCombined S hash (sk • S.group.gen) signature header messageScalars
    committedScalars apiId blindApiId cs = .ok true := by
  have hlength := length_createGeneratorsWithApiId hgenerators
  have hblindLength := length_createGeneratorsWithApiId hblind
  obtain ⟨domain, hdomain⟩ : ∃ domain, calculateDomainWithApiId S hash (sk • S.group.gen) (generators.getD 0 0)
      (generators.drop 1 ++ blindGenerators) header apiId cs = .ok domain := hhash _ _
  obtain ⟨e, he⟩ : ∃ e, blindSignatureE S hash sk (b + domain • generators.getD 0 0) apiId cs = .ok e := hhash _ _
  obtain ⟨hne, hinv⟩ := hfinal domain e hdomain he
  have ha : (sk + e)⁻¹ • (b + domain • generators.getD 0 0) ≠ 0 := smul_ne_zero (inv_ne_zero hinv) hne
  refine ⟨⟨(sk + e)⁻¹ • (b + domain • generators.getD 0 0), e⟩, ?_, ha, ?_⟩
  · unfold finalizeBlindSign
    dsimp only
    rw [hdomain, ok_bind, he, ok_bind, if_neg hinv]
    show ((if _ then _ else _) : Except BbsError _) = _
    rw [if_neg ha]
    rfl
  · have hhead : (generators ++ blindGenerators).getD 0 0 = generators.getD 0 0 := by
      cases generators with
      | nil => simp at hlength
      | cons q1 h => rfl
    have htail : (generators ++ blindGenerators).drop 1 = generators.drop 1 ++ blindGenerators :=
      drop_append_of_le_length (by omega)
    have htailLength : (generators.drop 1).length = messageScalars.length := by
      rw [length_drop, hlength]
      rfl
    unfold verifyCombined
    rw [hgenerators, ok_bind, hblind, ok_bind]
    dsimp only
    rw [hhead, htail, hdomain, ok_bind]
    refine congrArg Except.ok ?_
    rw [verifySignaturePairing_key, computeB_eq_combine, combine_append htailLength.symm, smul_smul,
      mul_inv_cancel₀ hinv, one_smul, hb]
    · abel
    · rw [length_append, length_append, htailLength, hblindLength]

end Signing

/-! ## Issuance -/

section Issuance

variable [DecidableEq G₁]

variable (S) in
/-- What the issuer needs to sign, for `m` committed scalars and `entropy` on the last blind generator: `B` is not the
identity, before and after the entropy and the domain are in it, and `SK + e` has an inverse. -/
def Signable (hash : HashToScalar p) (sk : ZMod p) (commitment : G₁) (m : ℕ) (entropy : ZMod p) (header : List UInt8)
    (messages : List (List UInt8)) (apiId blindApiId : List UInt8) (cs : Ciphersuite) : Prop :=
  ∀ generators blindGenerators messageScalars b,
    createGeneratorsWithApiId S (messages.length + 1) apiId cs = .ok generators →
    createGeneratorsWithApiId S (m + 1) blindApiId cs = .ok blindGenerators →
    messagesToScalarsWithApiId hash messages apiId cs = .ok messageScalars →
    b = issuerB S generators commitment messageScalars + entropy • blindGenerators.getD m 0 →
    issuerB S generators commitment messageScalars ≠ 0 ∧ b ≠ 0 ∧
    ∀ domain e, calculateDomainWithApiId S hash (sk • S.group.gen) (generators.getD 0 0)
        (generators.drop 1 ++ blindGenerators) header apiId cs = .ok domain →
      blindSignatureE S hash sk (b + domain • generators.getD 0 0) apiId cs = .ok e →
      b + domain • generators.getD 0 0 ≠ 0 ∧ sk + e ≠ 0

variable (S) in
/-- What is written for committed scalars, and that it is read back. -/
structure Committed (hash : HashToScalar p) (committedScalars : List (ZMod p)) (blindGenerators : List G₁)
    (apiId : List UInt8) (randomScalars : List (ZMod p)) (commitment : G₁) (proof : List (ZMod p)) : Prop where
  written : coreCommit S hash committedScalars blindGenerators apiId randomScalars .bls12381Sha256 =
    .ok (commitmentWithProofToOctets S commitment proof, randomScalars.getD 0 0)
  sum : commitment = combine (randomScalars.getD 0 0 :: committedScalars) blindGenerators
  read : commitment ≠ 0 → (∀ s ∈ proof, s ≠ 0) →
    octetsToCommitmentWithProof S (commitmentWithProofToOctets S commitment proof) .bls12381Sha256 =
      .ok (commitment, proof)
  count : blindMessageCount (commitmentWithProofToOctets S commitment proof).length .bls12381Sha256 =
    .ok committedScalars.length
  validated : commitment ≠ 0 → (∀ s ∈ proof, s ≠ 0) →
    deserializeAndValidateCommit S hash (commitmentWithProofToOctets S commitment proof) blindGenerators apiId
      .bls12381Sha256 = .ok commitment

theorem exists_committed (hhash : ∀ data dst, ∃ s, hash data dst .bls12381Sha256 = .ok s) {blindGenerators : List G₁}
    {committedScalars randomScalars : List (ZMod p)}
      (hgenerators : blindGenerators.length = committedScalars.length + 1)
    (hrandom : randomScalars.length = committedScalars.length + 2) :
    ∃ commitment proof, Committed S hash committedScalars blindGenerators apiId randomScalars commitment proof := by
  obtain ⟨challenge, hchallenge⟩ : ∃ challenge, calculateBlindChallenge S hash
      (combine (randomScalars.getD 0 0 :: committedScalars) blindGenerators)
      (combine (randomScalars.drop 1) blindGenerators) blindGenerators apiId .bls12381Sha256 = .ok challenge :=
    hhash _ _
  have hlength := length_commitmentProof hrandom challenge
  refine ⟨combine (randomScalars.getD 0 0 :: committedScalars) blindGenerators,
    commitmentProof committedScalars randomScalars challenge, ?_⟩
  constructor
  · exact coreCommit_eq hgenerators hrandom hchallenge
  · rfl
  · exact fun hcommitment hproof =>
      octetsToCommitmentWithProof_commitmentWithProofToOctets hcommitment hproof (by omega)
  · exact blindMessageCount_commitmentWithProofToOctets hlength
  · exact deserializeAndValidateCommit_commitmentProof hgenerators hrandom hchallenge

omit [DecidableEq G₁] in
theorem commitWithRandomScalars_eq {committedMessages : List (List UInt8)}
    {committedScalars randomScalars : List (ZMod p)}
    {blindGenerators : List G₁}
    (hscalars : messagesToScalarsWithApiId hash committedMessages cs.blindApiId cs = .ok committedScalars)
    (hgenerators : createGeneratorsWithApiId S (committedMessages.length + 1) (blindGeneratorsApiId cs) cs =
      .ok blindGenerators) (hrandom : randomScalars.length = committedMessages.length + 2) :
    commitWithRandomScalars S hash committedMessages randomScalars cs =
      coreCommit S hash committedScalars blindGenerators cs.blindApiId randomScalars cs := by
  unfold commitWithRandomScalars
  dsimp only
  rw [if_neg (not_not.2 hrandom), hscalars, ok_bind, hgenerators, ok_bind]

omit [DecidableEq G₁] in
theorem nymCommitWithRandomScalars_eq {committedMessages : List (List UInt8)}
    {committedScalars randomScalars : List (ZMod p)} {blindGenerators : List G₁} {proverNym : ZMod p}
    (hscalars : messagesToScalarsWithApiId hash committedMessages cs.pseudonymApiId cs = .ok committedScalars)
    (hgenerators : createGeneratorsWithApiId S (committedMessages.length + 2) (pseudonymBlindGeneratorsApiId cs) cs =
      .ok blindGenerators) :
    nymCommitWithRandomScalars S hash proverNym committedMessages randomScalars cs =
      coreCommit S hash (committedScalars ++ [proverNym]) blindGenerators cs.pseudonymApiId randomScalars cs := by
  have hlength : (committedScalars ++ [proverNym]).length + 1 = committedMessages.length + 2 := by
    rw [length_append, (messagesToScalarsWithApiId_getD hscalars).1]
    rfl
  unfold nymCommitWithRandomScalars
  dsimp only
  rw [hscalars, ok_bind, hlength, hgenerators, ok_bind]

variable [DecidableEq G₂] [DecidableEq GT] (hhash : ∀ data dst, ∃ s, hash data dst .bls12381Sha256 = .ok s)
  {sk : ZMod p}
  (hsk : sk ≠ 0) {header : List UInt8} {messages committedMessages : List (List UInt8)}
  (hmessages : messages.length < maxGenerators) {committedScalars randomScalars : List (ZMod p)}
  {blindGenerators : List G₁} {commitment : G₁} {proof : List (ZMod p)}
include hhash hsk hmessages

omit hsk [DecidableEq G₂] in
/-- What a commitment is signed to: a signature over its scalars, with the entropy on the last blind generator. -/
theorem exists_signature {blindApiId : List UInt8} {m : ℕ} {entropy : ZMod p} {combined : List (ZMod p)}
    (hblind : createGeneratorsWithApiId S (m + 1) blindApiId .bls12381Sha256 = .ok blindGenerators)
    (hcombined : combined.length = m + 1)
    (hsum : combine combined blindGenerators = commitment + entropy • blindGenerators.getD m 0)
    (hsignable : Signable S hash sk commitment m entropy header messages apiId blindApiId .bls12381Sha256) :
    ∃ generators messageScalars signature, createGeneratorsWithApiId S (messages.length + 1) apiId
    .bls12381Sha256 = .ok generators ∧ messagesToScalarsWithApiId hash messages apiId .bls12381Sha256 =
    .ok messageScalars ∧ blindBCalculate S generators commitment messageScalars =
    .ok (issuerB S generators commitment messageScalars) ∧ issuerB S generators commitment messageScalars + entropy
    • blindGenerators.getD m 0 ≠ 0 ∧ finalizeBlindSign S hash sk (sk • S.group.gen)
    (issuerB S generators commitment messageScalars + entropy • blindGenerators.getD m 0) generators
    blindGenerators header apiId .bls12381Sha256 = .ok signature ∧ signature.a ≠ 0 ∧ verifyCombined S hash
    (sk • S.group.gen) signature header messageScalars combined apiId blindApiId .bls12381Sha256 = .ok true := by
  obtain ⟨generators, hgenerators⟩ := @createGeneratorsWithApiId_ok _ _ _ _ _ _ _ _ _ _ _ S apiId _
    (show messages.length + 1 ≤ maxGenerators from hmessages)
  obtain ⟨messageScalars, hmessageScalars⟩ :=
    @messagesToScalarsWithApiId_ok _ hash apiId .bls12381Sha256 hhash messages
  have hlength := (messagesToScalarsWithApiId_getD hmessageScalars).1
  have hgeneratorsLength : generators.length = messageScalars.length + 1 := by
    rw [length_createGeneratorsWithApiId hgenerators, hlength]
  obtain ⟨hb, hbEntropy, hfinal⟩ :=
    hsignable generators blindGenerators messageScalars _ hgenerators hblind hmessageScalars rfl
  obtain ⟨signature, hsign, ha, hverify⟩ := @finalizeBlindSign_verified _ _ _ _ _ _ _ _ _ _ _ S hash apiId
    .bls12381Sha256 _ blindGenerators combined _ generators messageScalars sk
    (issuerB S generators commitment messageScalars + entropy • blindGenerators.getD m 0) header blindApiId hhash
    (by rwa [hlength]) (by rwa [hcombined])
    (by rw [issuerB_eq_combine hgeneratorsLength, hsum, add_assoc _ commitment]) hfinal
  refine ⟨generators, messageScalars, signature, hgenerators, hmessageScalars, ?_, hbEntropy, hsign, ha, hverify⟩
  unfold blindBCalculate
  rw [if_neg (not_not.2 hgeneratorsLength)]
  exact if_neg hb

theorem blindSign_verified (hscalars : messagesToScalarsWithApiId hash committedMessages
    (blindApiId .bls12381Sha256) .bls12381Sha256 = .ok committedScalars)
    (hblind : createGeneratorsWithApiId S (committedMessages.length + 1) (blindGeneratorsApiId .bls12381Sha256)
    .bls12381Sha256 = .ok blindGenerators) (hcommitted : Committed S hash committedScalars blindGenerators
    (blindApiId .bls12381Sha256) randomScalars commitment proof) (hcommitment : commitment ≠ 0)
    (hproof : ∀ s ∈ proof, s ≠ 0)
    (hsignable : Signable S hash sk commitment committedMessages.length 0 header messages
    (blindApiId .bls12381Sha256) (blindGeneratorsApiId .bls12381Sha256) .bls12381Sha256) : ∃ signature,
    blindSign S hash sk (sk • S.group.gen) (commitmentWithProofToOctets S commitment proof) header messages
    .bls12381Sha256 = .ok signature ∧ blindVerify S hash (sk • S.group.gen) signature header messages
    committedMessages (randomScalars.getD 0 0) .bls12381Sha256 = .ok true := by
  have hcommittedLength := (messagesToScalarsWithApiId_getD hscalars).1
  have hcombined : (randomScalars.getD 0 0 :: committedScalars).length = committedMessages.length + 1 := by
    rw [length_cons, hcommittedLength]
  obtain ⟨generators, messageScalars, signature, hgenerators, hmessageScalars, hb, -, hsign, ha, hverify⟩ :=
    exists_signature hhash hmessages hblind hcombined (by rw [zero_smul, add_zero, hcommitted.sum]) hsignable
  rw [zero_smul, add_zero] at hsign
  refine ⟨signature, ?_, ?_⟩
  · unfold blindSign
    dsimp only
    rw [hcommitted.count, ok_bind, hgenerators, ok_bind, hcommittedLength, hblind, ok_bind,
      hcommitted.validated hcommitment hproof, ok_bind, hmessageScalars, ok_bind, hb]
    exact hsign
  · unfold blindVerify validatePublicKey
    rw [if_neg (smul_ne_zero hsk S.group.gen_ne)]
    show ((if signature.a = 0 then _ else _) : Except BbsError _) = _
    rw [if_neg ha]
    dsimp only
    rw [hmessageScalars, ok_bind, hscalars, ok_bind]
    exact hverify

/-- With the issuer's entropy the signature is over `prover_nym + signer_nym_entropy`. -/
theorem blindSignWithNym_verified {proverNym signerNymEntropy : ZMod p}
    (hscalars : messagesToScalarsWithApiId hash committedMessages (pseudonymApiId .bls12381Sha256)
    .bls12381Sha256 = .ok committedScalars) (hblind : createGeneratorsWithApiId S (committedMessages.length + 2)
    (pseudonymBlindGeneratorsApiId .bls12381Sha256) .bls12381Sha256 = .ok blindGenerators)
    (hcommitted : Committed S hash (committedScalars ++ [proverNym]) blindGenerators
    (pseudonymApiId .bls12381Sha256) randomScalars commitment proof) (hcommitment : commitment ≠ 0)
    (hproof : ∀ s ∈ proof, s ≠ 0)
    (hsignable : Signable S hash sk commitment (committedMessages.length + 1) signerNymEntropy header messages
    (pseudonymApiId .bls12381Sha256) (pseudonymBlindGeneratorsApiId .bls12381Sha256) .bls12381Sha256) :
    ∃ signature messageScalars, blindSignWithNym S hash sk (sk • S.group.gen)
    (commitmentWithProofToOctets S commitment proof) signerNymEntropy header messages .bls12381Sha256 =
    .ok signature ∧ messagesToScalarsWithApiId hash messages (pseudonymApiId .bls12381Sha256)
    .bls12381Sha256 = .ok messageScalars ∧ verifyCombined S hash (sk • S.group.gen) signature header messageScalars
    (randomScalars.getD 0 0 :: committedScalars ++ [proverNym + signerNymEntropy])
    (pseudonymApiId .bls12381Sha256) (pseudonymBlindGeneratorsApiId .bls12381Sha256) .bls12381Sha256 =
    .ok true ∧ blindVerifyWithNym S hash (sk • S.group.gen) signature header messages committedMessages proverNym
    signerNymEntropy (randomScalars.getD 0 0) .bls12381Sha256 = .ok true := by
  have hcommittedLength := (messagesToScalarsWithApiId_getD hscalars).1
  have hblindLength := length_createGeneratorsWithApiId hblind
  -- the nym's generator is the last one
  obtain ⟨js, nymGenerator, rfl⟩ : ∃ js g, blindGenerators = js ++ [g] :=
    ⟨blindGenerators.dropLast, blindGenerators.getLast (by rintro rfl; simp at hblindLength),
      (dropLast_concat_getLast _).symm⟩
  have hjs : js.length = committedMessages.length + 1 := by
    rw [length_append] at hblindLength
    exact Nat.succ_inj.1 hblindLength
  have hlast : (js ++ [nymGenerator]).getD (committedMessages.length + 1) 0 = nymGenerator := by
    simp [getD_eq_getElem?_getD, ← hjs]
  have hcombined : (randomScalars.getD 0 0 :: committedScalars ++ [proverNym + signerNymEntropy]).length =
      committedMessages.length + 1 + 1 := by
    rw [length_append, length_cons, hcommittedLength]
    rfl
  obtain ⟨generators, messageScalars, signature, hgenerators, hmessageScalars, hb, hbNym, hsign, ha, hverify⟩ :=
    exists_signature hhash hmessages hblind hcombined
      (by rw [combine_concat_add (by rw [length_cons, hjs, hcommittedLength]), hcommitted.sum, hlast]; rfl) hsignable
  rw [hlast] at hbNym hsign
  refine ⟨signature, messageScalars, ?_, hmessageScalars, hverify, ?_⟩
  · have hcount := hcommitted.count
    rw [length_append, hcommittedLength] at hcount
    unfold blindSignWithNym
    dsimp only
    rw [hcount, ok_bind, hgenerators, ok_bind,
      show committedMessages.length + [proverNym].length + 1 = committedMessages.length + 2 from rfl, hblind,
        ok_bind,
      hcommitted.validated hcommitment hproof, ok_bind, hmessageScalars, ok_bind, hb, ok_bind, getLast?_concat]
    show ((if issuerB S generators commitment messageScalars + signerNymEntropy • nymGenerator = 0 then _ else _) :
      Except BbsError _) = _
    rw [if_neg hbNym]
    exact hsign
  · unfold blindVerifyWithNym validatePublicKey
    rw [if_neg (smul_ne_zero hsk S.group.gen_ne)]
    show ((if signature.a = 0 then _ else _) : Except BbsError _) = _
    rw [if_neg ha]
    dsimp only
    rw [hmessageScalars, ok_bind, hscalars, ok_bind]
    exact hverify

omit [DecidableEq G₂] [DecidableEq GT] hsk hmessages in
theorem exists_blinded (apiId blindApiId : List UInt8) (secret : List (ZMod p))
    (hcount : committedMessages.length + secret.length < maxGenerators)
    (hrandom : randomScalars.length = committedMessages.length + secret.length + 2) :
    ∃ committedScalars blindGenerators commitment proof, messagesToScalarsWithApiId hash committedMessages apiId
    .bls12381Sha256 = .ok committedScalars ∧ createGeneratorsWithApiId S
    (committedMessages.length + secret.length + 1) blindApiId .bls12381Sha256 = .ok blindGenerators ∧
    Committed S hash (committedScalars ++ secret) blindGenerators apiId randomScalars commitment proof := by
  obtain ⟨committedScalars, hscalars⟩ :=
    @messagesToScalarsWithApiId_ok _ hash apiId .bls12381Sha256 hhash committedMessages
  obtain ⟨blindGenerators, hblind⟩ := @createGeneratorsWithApiId_ok _ _ _ _ _ _ _ _ _ _ _ S blindApiId _
    (show committedMessages.length + secret.length + 1 ≤ maxGenerators from hcount)
  have hlength : (committedScalars ++ secret).length = committedMessages.length + secret.length := by
    rw [length_append, (messagesToScalarsWithApiId_getD hscalars).1]
  obtain ⟨commitment, proof, hcommitted⟩ := @exists_committed _ _ _ _ _ _ _ _ _ _ _ S hash apiId _ hhash
    blindGenerators (committedScalars ++ secret) randomScalars
    (by rw [length_createGeneratorsWithApiId hblind, hlength]) (by rw [hrandom, hlength])
  exact ⟨committedScalars, blindGenerators, commitment, proof, hscalars, hblind, hcommitted⟩

/-- Blind issuance is complete, without and with a pseudonym secret: what the holder commits to is read back as it was
written, and unless `B` is the identity or `SK + e` is zero the issuer signs and the holder accepts. -/
theorem blind_issuance_complete :
    (∀ randomScalars, committedMessages.length < maxGenerators →
      randomScalars.length = committedMessages.length + 2 → ∃ commitment proof,
        commitWithRandomScalars S hash committedMessages randomScalars .bls12381Sha256 =
          .ok (commitmentWithProofToOctets S commitment proof, randomScalars.getD 0 0) ∧
        (commitment ≠ 0 → (∀ s ∈ proof, s ≠ 0) →
          octetsToCommitmentWithProof S (commitmentWithProofToOctets S commitment proof) .bls12381Sha256 =
            .ok (commitment, proof) ∧
          blindMessageCount (commitmentWithProofToOctets S commitment proof).length .bls12381Sha256 =
            .ok committedMessages.length ∧
          (Signable S hash sk commitment committedMessages.length 0 header messages
              (blindApiId .bls12381Sha256) (blindGeneratorsApiId .bls12381Sha256) .bls12381Sha256 →
            ∃ signature,
              blindSign S hash sk (sk • S.group.gen) (commitmentWithProofToOctets S commitment proof) header messages
                .bls12381Sha256 = .ok signature ∧
              blindVerify S hash (sk • S.group.gen) signature header messages committedMessages
                (randomScalars.getD 0 0) .bls12381Sha256 = .ok true))) ∧
    (∀ proverNym signerNymEntropy randomScalars, committedMessages.length + 1 < maxGenerators →
      randomScalars.length = committedMessages.length + 3 → ∃ committedScalars commitment proof,
        messagesToScalarsWithApiId hash committedMessages
          (pseudonymApiId .bls12381Sha256) .bls12381Sha256 = .ok committedScalars ∧
        nymCommitWithRandomScalars S hash proverNym committedMessages randomScalars .bls12381Sha256 =
          .ok (commitmentWithProofToOctets S commitment proof, randomScalars.getD 0 0) ∧
        (commitment ≠ 0 → (∀ s ∈ proof, s ≠ 0) →
          octetsToCommitmentWithProof S (commitmentWithProofToOctets S commitment proof) .bls12381Sha256 =
            .ok (commitment, proof) ∧
          blindMessageCount (commitmentWithProofToOctets S commitment proof).length .bls12381Sha256 =
            .ok (committedMessages.length + 1) ∧
          (Signable S hash sk commitment (committedMessages.length + 1) signerNymEntropy header messages
              (pseudonymApiId .bls12381Sha256) (pseudonymBlindGeneratorsApiId .bls12381Sha256)
              .bls12381Sha256 → ∃ signature messageScalars,
              blindSignWithNym S hash sk (sk • S.group.gen) (commitmentWithProofToOctets S commitment proof)
                signerNymEntropy header messages .bls12381Sha256 = .ok signature ∧
              messagesToScalarsWithApiId hash messages (pseudonymApiId .bls12381Sha256) .bls12381Sha256 =
                .ok messageScalars ∧ verifyCombined S hash (sk • S.group.gen) signature header messageScalars
                (randomScalars.getD 0 0 :: committedScalars ++ [proverNym + signerNymEntropy])
                (pseudonymApiId .bls12381Sha256) (pseudonymBlindGeneratorsApiId .bls12381Sha256)
                .bls12381Sha256 = .ok true ∧
              blindVerifyWithNym S hash (sk • S.group.gen) signature header messages committedMessages proverNym
                signerNymEntropy (randomScalars.getD 0 0) .bls12381Sha256 = .ok true))) := by
  constructor
  · intro randomScalars hcount hrandom
    obtain ⟨committedScalars, blindGenerators, commitment, proof, hscalars, hblind, hcommitted⟩ :=
      @exists_blinded _ _ _ _ _ _ _ _ _ _ _ S hash _ hhash _ _ _ _ [] hcount hrandom
    rw [append_nil] at hcommitted
    have hcommit := (commitWithRandomScalars_eq hscalars hblind hrandom).trans hcommitted.written
    refine ⟨commitment, proof, hcommit, fun hcommitment hproof => ⟨hcommitted.read hcommitment hproof, ?_, ?_⟩⟩
    · rw [hcommitted.count, (messagesToScalarsWithApiId_getD hscalars).1]
    · exact blindSign_verified hhash hsk hmessages hscalars hblind hcommitted hcommitment hproof
  · intro proverNym signerNymEntropy randomScalars hcount hrandom
    obtain ⟨committedScalars, blindGenerators, commitment, proof, hscalars, hblind, hcommitted⟩ :=
      @exists_blinded _ _ _ _ _ _ _ _ _ _ _ S hash _ hhash _ _ _ _ [proverNym] hcount hrandom
    have hcommit := (nymCommitWithRandomScalars_eq hscalars hblind).trans hcommitted.written
    refine ⟨committedScalars, commitment, proof, hscalars, hcommit, fun hcommitment hproof =>
      ⟨hcommitted.read hcommitment hproof, ?_, ?_⟩⟩
    · rw [hcommitted.count, length_append, (messagesToScalarsWithApiId_getD hscalars).1]
      rfl
    · exact blindSignWithNym_verified hhash hsk hmessages hscalars hblind hcommitted hcommitment hproof

end Issuance

/-! ## Where the issuer does not sign -/

/-- With a proof that it takes and `B ≠ 0`, the issuer finds no inverse of `SK + e` where `e = -SK`; and it has no
generators for 1024 messages. -/
theorem blindSign_refused :
    commitWithRandomScalars suiteThree (constantHash 2) [] [1, 2] .bls12381Sha256 =
      .ok (commitmentWithProofToOctets suiteThree 1 [1, 2], 1) ∧
    octetsToCommitmentWithProof suiteThree (commitmentWithProofToOctets suiteThree 1 [1, 2]) .bls12381Sha256 =
      .ok (1, [1, 2]) ∧
    issuerB suiteThree [1] 1 [] = 2 ∧
    blindSign suiteThree (constantHash 2) 1 1 (commitmentWithProofToOctets suiteThree 1 [1, 2]) []
      [] .bls12381Sha256 =
      .error (.crypto "SK + e has no inverse") ∧
    blindSign suiteThree (constantHash 2) 2 2 (commitmentWithProofToOctets suiteThree 1 [1, 2]) []
      (List.replicate 1024 []) .bls12381Sha256 =
      .error (.invalidProof "generator/message count 1025 exceeds maximum 1024") := by
  decide +kernel

/-- Whether the residues are signed is seen from the sums. -/
theorem signable_residues {sk : ZMod 3} {commitment : ZMod 3} {m : ℕ} {entropy : ZMod 3}
    {messages : List (List UInt8)}
    {apiId blindApiId : List UInt8} {generators blindGenerators messageScalars : List (ZMod 3)}
    (hgenerators : createGeneratorsWithApiId suiteThree (messages.length + 1) apiId .bls12381Sha256 = .ok generators)
    (hblind : createGeneratorsWithApiId suiteThree (m + 1) blindApiId .bls12381Sha256 = .ok blindGenerators)
    (hscalars : messagesToScalarsWithApiId (constantHash 2) messages apiId .bls12381Sha256 = .ok messageScalars)
    (hissuer : issuerB suiteThree generators commitment messageScalars ≠ 0)
    (hb : issuerB suiteThree generators commitment messageScalars + entropy • blindGenerators.getD m 0 ≠ 0)
    (hdomain : issuerB suiteThree generators commitment messageScalars + entropy • blindGenerators.getD m 0 +
      (2 : ZMod 3) • generators.getD 0 0 ≠ 0) (hinv : sk + 2 ≠ 0) (header : List UInt8) :
    Signable suiteThree (constantHash 2) sk commitment m entropy header messages apiId blindApiId
      .bls12381Sha256 := by
  intro generators' blindGenerators' messageScalars' b hgenerators' hblind' hscalars' hb'
  cases hgenerators.symm.trans hgenerators'
  cases hblind.symm.trans hblind'
  cases hscalars.symm.trans hscalars'
  subst hb'
  refine ⟨hissuer, hb, fun domain e hd he => ?_⟩
  obtain rfl : 2 = domain := Except.ok.inj hd
  obtain rfl : 2 = e := Except.ok.inj he
  exact ⟨hdomain, hinv⟩

/-- The holder commits to two messages, then to one and a pseudonym, and gets its signatures on them and on one message
of the issuer. -/
theorem blind_issuance_residues :
    (∃ signature, blindSign suiteThree (constantHash 2) 2 ((2 : ZMod 3) • suiteThree.group.gen)
        (commitmentWithProofToOctets suiteThree 2 [1, 2, 2, 2]) [] [[]] .bls12381Sha256 = .ok signature ∧
      blindVerify suiteThree (constantHash 2) ((2 : ZMod 3) • suiteThree.group.gen) signature [] [[]] [[1], [2]] 1
        .bls12381Sha256 = .ok true) ∧
    ∃ signature,
      blindSignWithNym suiteThree (constantHash 2) 2 ((2 : ZMod 3) • suiteThree.group.gen)
        (commitmentWithProofToOctets suiteThree 1 [1, 2, 1, 2]) 1 [] [[]] .bls12381Sha256 = .ok signature ∧
      blindVerifyWithNym suiteThree (constantHash 2) ((2 : ZMod 3) • suiteThree.group.gen) signature [] [[]] [[1]] 1 1 1
        .bls12381Sha256 = .ok true := by
  constructor
  · obtain ⟨hblind, -⟩ := @blind_issuance_complete _ _ _ _ _ _ _ _ _ _ _ suiteThree (constantHash 2) _ _ _
      (fun _ _ => ⟨2, rfl⟩) 2 (by decide) [] [[]] [[1], [2]] (by decide)
    obtain ⟨commitment, proof, hcommit, hissued⟩ := hblind [1, 2, 1, 1] (by decide) rfl
    have hwritten : commitWithRandomScalars suiteThree (constantHash 2) [[1], [2]] [1, 2, 1, 1] .bls12381Sha256 =
      .ok (commitmentWithProofToOctets suiteThree 2 [1, 2, 2, 2], 1) := by decide +kernel
    obtain ⟨rfl, rfl⟩ := commitmentWithProofToOctets_inj
      (congrArg Prod.fst (Except.ok.inj (hwritten.symm.trans hcommit)))
    exact (hissued (by decide) (by decide)).2.2 (@signable_residues 2 2 _ 0 _ _ _ [1, 1] [1, 1, 1] [2]
      (by decide +kernel) (by decide +kernel) (by decide +kernel) (by decide) (by decide) (by decide) (by decide) [])
  · obtain ⟨-, hnym⟩ := @blind_issuance_complete _ _ _ _ _ _ _ _ _ _ _ suiteThree (constantHash 2) _ _ _
      (fun _ _ => ⟨2, rfl⟩) 2 (by decide) [] [[]] [[1]] (by decide)
    obtain ⟨committedScalars, commitment, proof, -, hcommit, hissued⟩ := hnym 1 1 [1, 2, 1, 2] (by decide) rfl
    have hwritten : nymCommitWithRandomScalars suiteThree (constantHash 2) 1 [[1]] [1, 2, 1, 2] .bls12381Sha256 =
      .ok (commitmentWithProofToOctets suiteThree 1 [1, 2, 1, 2], 1) := by decide +kernel
    obtain ⟨rfl, rfl⟩ := commitmentWithProofToOctets_inj
      (congrArg Prod.fst (Except.ok.inj (hwritten.symm.trans hcommit)))
    obtain ⟨signature, -, hsign, -, -, hverify⟩ :=
      (hissued (by decide) (by decide)).2.2 (@signable_residues 2 1 _ 1 _ _ _
      [1, 1] [1, 1, 1] [2] (by decide +kernel) (by decide +kernel) (by decide +kernel) (by decide) (by decide)
        (by decide) (by decide) [])
    exact ⟨signature, hsign, hverify⟩

end AffinidiTdk.Bbs
