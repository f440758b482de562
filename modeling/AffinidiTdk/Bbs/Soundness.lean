/-
Special soundness of BBS proof verification. Two accepted proofs over the same points give,
through linear extraction, messages and a signature, or a relation between the generators, or
the secret key. The verifier never compares `Abar` with the identity, and with `Abar` the
identity its final pairing equation no longer mentions the key.
-/
import AffinidiTdk.Bbs.Accept

namespace AffinidiTdk.Bbs

open Bilinear Fallible List

section Extract

variable {p : ℕ} [Fact p.Prime] {G₁ G₂ GT : Type} [AddCommGroup G₁] [Module (ZMod p) G₁]
  [AddCommGroup G₂] [Module (ZMod p) G₂] [AddCommGroup GT] [Module (ZMod p) GT]
  (S : Suite p G₁ G₂ GT) (q1 : G₁) (hGenerators : List G₁) (disclosedIndexes : List ℕ)
  (disclosedScalars : List (ZMod p)) (domain : ZMod p)

/-! ## The extractor -/

theorem readScalars_length {buf : List UInt8} {u offset : ℕ} {ms : List (ZMod p)} {offset' : ℕ}
    (h : readScalars S buf u offset = .ok (ms, offset')) : ms.length = u := by
  induction u generalizing offset ms offset' with
  | zero =>
    simp only [readScalars, Except.ok.injEq, Prod.mk.injEq] at h
    simp [← h.1]
  | succ u ih =>
    simp only [readScalars, bind_eq_ok_iff, pure_eq_ok_iff, Prod.mk.injEq] at h
    obtain ⟨s, -, rest, hrest, rfl, -⟩ := h
    rw [length_cons, ih hrest]

variable {P : ProofParts p G₁}

theorem mHats_length {proofBytes : List UInt8} {u : ℕ} (h : deserializeProof S proofBytes u = .ok P) :
    P.mHats.length = u := by
  simp only [deserializeProof, bind_eq_ok_iff, guard_eq_ok_iff, pure_eq_ok_iff] at h
  obtain ⟨_, -, _, -, _, -, _, -, _, -, _, -, ms, hms, _, -, -, rfl⟩ := h
  exact readScalars_length S hms

/-- What two proofs over one commitment reveal: a scalar `x` answered by `x̂` and `x̂'` is
`(x̂ - x̂') / (c - c')`. -/
structure Extracted (p : ℕ) where
  e : ZMod p
  r1 : ZMod p
  r3 : ZMod p
  ms : List (ZMod p)

def extract (P P' : ProofParts p G₁) : Extracted p :=
  let k := (P.challenge - P'.challenge)⁻¹
  { e := k * (P.eHat - P'.eHat)
    r1 := -(k * (P.r1Hat - P'.r1Hat))
    r3 := -(k * (P.r3Hat - P'.r3Hat))
    ms := List.zipWith (fun m m' => k * (m - m')) P.mHats P'.mHats }

/-- The signature the extractor puts together from the blinded point. -/
def extractSignature (P P' : ProofParts p G₁) : Signature p G₁ :=
  let x := extract P P'
  ⟨(x.r3 / x.r1) • P.abar, x.e⟩

variable {P' : ProofParts p G₁}

omit [AddCommGroup G₁] [Module (ZMod p) G₁] in
theorem extract_ms_getD (hlen : P.mHats.length = P'.mHats.length) (i : ℕ) : (extract P P').ms.getD i 0 =
    (P.challenge - P'.challenge)⁻¹ * (P.mHats.getD i 0 - P'.mHats.getD i 0) := by
  unfold extract
  by_cases hi : i < P.mHats.length
  · have hi' : i < P'.mHats.length := hlen ▸ hi
    simp [getD_eq_getElem?_getD, hi, hi']
  · have hi' : P'.mHats.length ≤ i := by omega
    simp [getD_eq_getElem?_getD, Nat.not_lt.1 hi, hi']

theorem undisclosedSum_extract (hlen : P.mHats.length = P'.mHats.length) :
    undisclosedSum hGenerators disclosedIndexes (extract P P').ms = (P.challenge - P'.challenge)⁻¹ •
    (undisclosedSum hGenerators disclosedIndexes P.mHats - undisclosedSum hGenerators disclosedIndexes
    P'.mHats) := by
  unfold undisclosedSum
  generalize (undisclosedIndexes hGenerators.length disclosedIndexes).zipIdx = js
  induction js with
  | nil => simp
  | cons j js ih =>
    simp only [map_cons, sum_cons]
    rw [ih, extract_ms_getD hlen]
    module

theorem bbar_eq_of_t1 (ha : P'.abar = P.abar) (hb : P'.bbar = P.bbar) (hd : P'.d = P.d)
    (ht : recomputeT1 P = recomputeT1 P') (hc : P.challenge ≠ P'.challenge) : P.bbar = (extract P P').r1 • P.d -
    (extract P P').e • P.abar := by
  unfold recomputeT1 at ht
  rw [ha, hb, hd] at ht
  rw [eq_of_two_responses hc ht]
  unfold extract
  module

theorem computeB_eq_of_t2 (hd : P'.d = P.d) (hlt : ∀ i ∈ disclosedIndexes, i < hGenerators.length)
    (hnd : disclosedIndexes.Nodup) (hlen : P.mHats.length = P'.mHats.length)
    (ht : verifierT2 S q1 hGenerators disclosedIndexes disclosedScalars domain P = verifierT2 S q1 hGenerators
    disclosedIndexes disclosedScalars domain P') (hc : P.challenge ≠ P'.challenge) : computeB S q1 domain
    hGenerators (assemble disclosedIndexes disclosedScalars hGenerators.length (extract P P').ms) =
    (extract P P').r3 • P.d := by
  rw [computeB_assemble S q1 hGenerators disclosedScalars domain hlt hnd,
    undisclosedSum_extract hGenerators disclosedIndexes hlen]
  unfold verifierT2 recomputeT2 at ht
  rw [foldl_add_eq (fun j : ℕ × ℕ => P.mHats.getD j.2 0 • hGenerators.getD j.1 0),
    foldl_add_eq (fun j : ℕ × ℕ => P'.mHats.getD j.2 0 • hGenerators.getD j.1 0), hd] at ht
  change _ + undisclosedSum hGenerators disclosedIndexes P.mHats =
    _ + undisclosedSum hGenerators disclosedIndexes P'.mHats at ht
  rw [add_assoc, add_assoc, add_comm (P.challenge • _), add_comm (P'.challenge • _)] at ht
  rw [eq_of_two_responses hc ht]
  unfold extract
  module

end Extract
section Soundness

variable {p : ℕ} [Fact p.Prime] {G₁ G₂ GT : Type} [AddCommGroup G₁] [Module (ZMod p) G₁]
  [AddCommGroup G₂] [Module (ZMod p) G₂] [AddCommGroup GT] [Module (ZMod p) GT]
  [DecidableEq G₁] [DecidableEq G₂] [DecidableEq GT]
  (S : Suite p G₁ G₂ GT) (pk : G₂) (q1 : G₁) (hGenerators : List G₁) (disclosedIndexes : List ℕ)
  (disclosedScalars : List (ZMod p)) (domain : ZMod p) (nym : Option (G₁ × G₁))

/-! ## Special soundness -/

/-- A signature under `pk` over messages that agree with the disclosed ones, the last of them
behind the pseudonym. -/
structure Opens (msgs : List (ZMod p)) (signature : Signature p G₁) : Prop where
  length : msgs.length = hGenerators.length
  agrees : ∀ k < disclosedIndexes.length,
    msgs.getD (disclosedIndexes.getD k 0) 0 = disclosedScalars.getD k 0
  a_ne : signature.a ≠ 0
  verified : verifySignaturePairing S pk signature (computeB S q1 domain hGenerators msgs) = true
  nym : ∀ op pseudonym, nym = some (op, pseudonym) →
    pseudonym = msgs.getD (hGenerators.length - 1) 0 • op

/-- The verifier accepts the proof whatever the public key, so that no secret key can have had a
part in it. -/
def KeyIndependent (hash : HashToScalar p) (proofBytes presentationHeader apiId : List UInt8)
    (cs : Ciphersuite) : Prop :=
  ∀ w : G₂, w ≠ 0 → proofVerifyCore S hash w proofBytes q1 hGenerators disclosedIndexes disclosedScalars
    domain presentationHeader nym apiId cs = .ok true

/-- The commitments to the pseudonym are the same. -/
def SameNymCommitment (u : ℕ) (P P' : ProofParts p G₁) : Prop :=
  ∀ op pseudonym, nym = some (op, pseudonym) →
    P.mHats.getD (u - 1) 0 • op - P.challenge • pseudonym =
      P'.mHats.getD (u - 1) 0 • op - P'.challenge • pseudonym

omit [DecidableEq G₁] [DecidableEq G₂] in
theorem verifySignaturePairing_key (sk : ZMod p) (signature : Signature p G₁) (b : G₁) :
    verifySignaturePairing S (sk • S.group.gen) signature b = true ↔
      b = (sk + signature.e) • signature.a := by
  unfold verifySignaturePairing
  rw [decide_eq_true_iff, pair_add_neg_eq_zero_iff, ← add_smul, S.group.pair_key_iff]

omit [DecidableEq G₂] [DecidableEq GT] [Module (ZMod p) G₂] [AddCommGroup G₂] [AddCommGroup GT]
  [Module (ZMod p) GT] in
theorem nymTerms_eq_some {l u : ℕ} {P : ProofParts p G₁} {op pseudonym : G₁}
    {terms : Option (G₁ × G₁ × G₁)}
    (h : nymTerms l u disclosedIndexes P (some (op, pseudonym)) = .ok (some terms)) :
    l ≠ 0 ∧ u ≠ 0 ∧ l - 1 ∉ disclosedIndexes ∧ op ≠ 0 ∧ pseudonym ≠ 0 := by
  simp only [nymTerms] at h
  split at h
  · cases h
  · rename_i hlu
    split at h
    · cases h
    · rename_i hnot
      split at h
      · cases h
      · rename_i hne
        push Not at hlu hne
        exact ⟨hlu.1, hlu.2, by simpa using hnot, hne.1, hne.2⟩

variable {S pk q1 hGenerators disclosedIndexes disclosedScalars domain nym}
variable {hash : HashToScalar p} {proofBytes presentationHeader apiId : List UInt8} {cs : Ciphersuite}
  {P : ProofParts p G₁}

section

variable (hacc : Accepted S hash pk proofBytes q1 hGenerators disclosedIndexes disclosedScalars domain
  presentationHeader nym apiId cs P)
include hacc

omit [DecidableEq G₂] [DecidableEq GT] in
theorem Accepted.indexes_ok :
    (∀ i ∈ disclosedIndexes, i < hGenerators.length) ∧ disclosedIndexes.Nodup := by
  obtain ⟨hlt, hnd⟩ := (checkIndexes_eq_ok_iff _ _ _ _).1 hacc.indexes
  exact ⟨fun i hi => (hlt i hi).1, hnd⟩

theorem Accepted.keyIndependent_iff :
    KeyIndependent S q1 hGenerators disclosedIndexes disclosedScalars domain nym hash proofBytes
      presentationHeader apiId cs ↔ P.abar = 0 := by
  constructor
  · intro hall
    by_contra ha
    obtain ⟨v, hv0, hv⟩ := S.group.exists_other_key pk
    obtain ⟨P', hacc'⟩ := (proofVerifyCore_eq_true_iff ..).1 (hall v hv0)
    obtain rfl : P' = P := by
      have heq := hacc'.decoded.symm.trans hacc.decoded
      exact Except.ok.inj heq
    exact hv (S.group.key_unique ha hacc'.paired hacc.paired)
  · intro ha w hw
    have hb : P.bbar = 0 := by
      apply S.group.nondeg
      rw [← hacc.paired, ha, S.group.zero_left]
    apply (proofVerifyCore_eq_true_iff ..).2
    refine ⟨P, hw, hacc.length, hacc.count, hacc.scalars, hacc.indexes, hacc.decoded, hacc.challenge, ?_⟩
    rw [ha, hb, S.group.zero_left, S.group.zero_left]

omit [DecidableEq G₂] in
theorem Accepted.exists_opens (ha : P.abar ≠ 0) :
    ∃ msgs signature, Opens S pk q1 hGenerators disclosedIndexes disclosedScalars domain nym msgs
      signature := by
  obtain ⟨hlt, hnd⟩ := hacc.indexes_ok
  obtain ⟨terms, hterms, -⟩ := hacc.challenge
  obtain ⟨sk, rfl⟩ := S.group.cyclic₂ pk
  have hlast : ∃ x : ZMod p, ∀ op pseudonym, nym = some (op, pseudonym) → pseudonym = x • op := by
    cases nym with
    | none => exact ⟨0, by simp⟩
    | some n =>
      obtain ⟨-, -, -, hop, -⟩ := nymTerms_eq_some _ hterms
      obtain ⟨x, hx⟩ := S.group.cyclic₁ n.1 n.2 hop
      refine ⟨x, ?_⟩
      rintro op pseudonym ⟨⟩
      exact hx
  obtain ⟨x, hx⟩ := hlast
  let u := undisclosedCount hGenerators disclosedIndexes
  let msgs := assemble disclosedIndexes disclosedScalars hGenerators.length (List.replicate u x)
  have hnym : ∀ op pseudonym, nym = some (op, pseudonym) →
      pseudonym = msgs.getD (hGenerators.length - 1) 0 • op := by
    intro op pseudonym hsome
    rw [hsome] at hterms
    obtain ⟨hl, hu, hnot, -, -⟩ := nymTerms_eq_some _ hterms
    rw [assemble_last disclosedScalars hl hnot hlt hnd]
    have hpos : hGenerators.length - disclosedIndexes.length - 1 < u := by
      change undisclosedCount _ _ - 1 < undisclosedCount _ _
      omega
    rw [getD_eq_getElem?_getD, getElem?_replicate, if_pos hpos]
    exact hx op pseudonym hsome
  have hagrees := fun k hk => assemble_agrees disclosedScalars hlt hnd (List.replicate u x) (k := k) hk
  by_cases hB : computeB S q1 domain hGenerators msgs = 0
  · refine ⟨msgs, ⟨P.abar, -sk⟩, assemble_length .., hagrees, ha, ?_, hnym⟩
    rw [verifySignaturePairing_key, hB]
    simp
  · refine ⟨msgs, ⟨computeB S q1 domain hGenerators msgs, 1 - sk⟩, assemble_length .., hagrees, hB, ?_, hnym⟩
    rw [verifySignaturePairing_key]
    simp

omit [DecidableEq G₂] in
/-- What the extractor has in hand after two proofs with a proper `Abar`: a signature, a relation
between the generators, or the secret key. -/
theorem Accepted.extract_opens {hash' : HashToScalar p} {proofBytes' presentationHeader' : List UInt8}
    {P' : ProofParts p G₁} (hacc' : Accepted S hash' pk proofBytes' q1 hGenerators
    disclosedIndexes disclosedScalars domain presentationHeader' nym apiId cs P') (hA : P'.abar = P.abar)
    (hB : P'.bbar = P.bbar) (hD : P'.d = P.d) (hT1 : recomputeT1 P = recomputeT1 P')
    (hT2 : verifierT2 S q1 hGenerators disclosedIndexes disclosedScalars domain P = verifierT2 S q1 hGenerators
    disclosedIndexes disclosedScalars domain P') (hc : P.challenge ≠ P'.challenge) (ha : P.abar ≠ 0)
    (hnym : SameNymCommitment nym (undisclosedCount hGenerators disclosedIndexes) P P') :
    computeB S q1 domain hGenerators (assemble disclosedIndexes disclosedScalars hGenerators.length
    (extract P P').ms) = 0 ∨ pk = (-(extract P P').e) • S.group.gen ∨ Opens S pk q1 hGenerators disclosedIndexes
    disclosedScalars domain nym (assemble disclosedIndexes disclosedScalars hGenerators.length (extract P P').ms)
    (extractSignature P P') := by
  obtain ⟨hlt, hnd⟩ := hacc.indexes_ok
  obtain ⟨terms, hterms, -⟩ := hacc.challenge
  obtain ⟨sk, rfl⟩ := S.group.cyclic₂ pk
  have hlen : P.mHats.length = P'.mHats.length := by
    rw [mHats_length S hacc.decoded, mHats_length S hacc'.decoded]
  have hbar := bbar_eq_of_t1 hA hB hD hT1 hc
  have hb := computeB_eq_of_t2 S q1 hGenerators disclosedIndexes disclosedScalars domain hD hlt hnd hlen
    hT2 hc
  -- `sk` and the extracted `e` turn `Abar` into a multiple of `D`
  have hkey : (sk + (extract P P').e) • P.abar = (extract P P').r1 • P.d := by
    have hsk := (S.group.pair_key_iff sk P.abar P.bbar).1 hacc.paired
    rw [add_smul, ← hsk, hbar]
    module
  by_cases hr3 : (extract P P').r3 = 0
  · left
    rw [hb, hr3, zero_smul]
  by_cases hr1 : (extract P P').r1 = 0
  · right; left
    rw [hr1, zero_smul] at hkey
    have hzero := (smul_eq_zero.1 hkey).resolve_right ha
    rw [← eq_neg_of_add_eq_zero_left hzero]
  · right; right
    refine ⟨assemble_length .., fun k hk => assemble_agrees disclosedScalars hlt hnd _ hk, ?_, ?_, ?_⟩
    · exact smul_ne_zero (div_ne_zero hr3 hr1) ha
    · rw [verifySignaturePairing_key, hb]
      change _ = (sk + (extract P P').e) • ((extract P P').r3 / (extract P P').r1) • P.abar
      rw [smul_comm, hkey, smul_smul, div_mul_cancel₀ _ hr1]
    · intro op pseudonym hsome
      have hsame := hnym op pseudonym hsome
      rw [hsome] at hterms
      obtain ⟨hl, -, hnot, -, -⟩ := nymTerms_eq_some _ hterms
      rw [assemble_last disclosedScalars hl hnot hlt hnd, extract_ms_getD hlen]
      rw [sub_eq_add_neg, sub_eq_add_neg, ← smul_neg, ← smul_neg] at hsame
      have hps := eq_of_two_responses hc hsame
      rw [← neg_neg pseudonym, hps]
      change _ = (_ * (P.mHats.getD (undisclosedCount hGenerators disclosedIndexes - 1) 0 - _)) • op
      unfold undisclosedCount
      module

end

theorem coreProofVerifyImpl_eq_true {header : List UInt8} {disclosedMessages : List (List UInt8)}
    (h : coreProofVerifyImpl S hash pk proofBytes header presentationHeader disclosedMessages disclosedIndexes nym
    cs = .ok true) : ∃ q1 hGenerators disclosedScalars domain, proofVerifyCore S hash pk proofBytes q1 hGenerators
    disclosedIndexes disclosedScalars domain presentationHeader nym cs.apiId cs = .ok true := by
  unfold coreProofVerifyImpl at h
  simp only [bind_eq_ok_iff, guard_eq_ok_iff] at h
  obtain ⟨-, -, -, -, scalars, -, generators, -, domain, -, hcore⟩ := h
  exact ⟨_, _, _, _, hcore⟩

variable (S pk q1 hGenerators disclosedIndexes disclosedScalars domain nym)

/-- Two accepted proofs over the same points: the verifier is specially sound, and the proof bound
to the key, exactly where `Abar` is not the identity; there the extractor computes a signature
unless it finds a relation between the generators or the secret key. Through the entry points
the proof is bound to the key in the same case only. -/
theorem proofVerifyCore_specialSound_iff (hash hash' : HashToScalar p)
    (proofBytes proofBytes' presentationHeader presentationHeader' apiId : List UInt8) (cs : Ciphersuite)
    (P P' : ProofParts p G₁)
    (hacc : proofVerifyCore S hash pk proofBytes q1 hGenerators disclosedIndexes disclosedScalars domain
      presentationHeader nym apiId cs = .ok true)
    (hacc' : proofVerifyCore S hash' pk proofBytes' q1 hGenerators disclosedIndexes disclosedScalars domain
      presentationHeader' nym apiId cs = .ok true)
    (hP : deserializeProof S proofBytes (undisclosedCount hGenerators disclosedIndexes) = .ok P)
    (hP' : deserializeProof S proofBytes' (undisclosedCount hGenerators disclosedIndexes) = .ok P')
    (hA : P'.abar = P.abar) (hB : P'.bbar = P.bbar) (hD : P'.d = P.d)
    (hT1 : recomputeT1 P = recomputeT1 P')
    (hT2 : verifierT2 S q1 hGenerators disclosedIndexes disclosedScalars domain P =
      verifierT2 S q1 hGenerators disclosedIndexes disclosedScalars domain P')
    (hc : P.challenge ≠ P'.challenge) :
    (((∃ msgs signature, Opens S pk q1 hGenerators disclosedIndexes disclosedScalars domain nym msgs signature) ∧
      ¬KeyIndependent S q1 hGenerators disclosedIndexes disclosedScalars domain nym hash proofBytes
        presentationHeader apiId cs) ↔ P.abar ≠ 0) ∧
    (P.abar ≠ 0 → SameNymCommitment nym (undisclosedCount hGenerators disclosedIndexes) P P' →
      computeB S q1 domain hGenerators
          (assemble disclosedIndexes disclosedScalars hGenerators.length (extract P P').ms) = 0 ∨
        pk = (-(extract P P').e) • S.group.gen ∨
        Opens S pk q1 hGenerators disclosedIndexes disclosedScalars domain nym
          (assemble disclosedIndexes disclosedScalars hGenerators.length (extract P P').ms)
          (extractSignature P P')) ∧
    (∀ header disclosedMessages,
      coreProofVerifyImpl S hash pk proofBytes header presentationHeader disclosedMessages
        disclosedIndexes nym cs = .ok true → ∃ q1 hGenerators disclosedScalars domain,
        proofVerifyCore S hash pk proofBytes q1 hGenerators disclosedIndexes disclosedScalars domain
          presentationHeader nym cs.apiId cs = .ok true ∧
        (¬KeyIndependent S q1 hGenerators disclosedIndexes disclosedScalars domain nym hash proofBytes
          presentationHeader cs.apiId cs ↔ P.abar ≠ 0)) := by
  obtain ⟨Q, hQ⟩ := (proofVerifyCore_eq_true_iff ..).1 hacc
  obtain ⟨Q', hQ'⟩ := (proofVerifyCore_eq_true_iff ..).1 hacc'
  obtain rfl : Q = P := Except.ok.inj (hQ.decoded.symm.trans hP)
  obtain rfl : Q' = P' := Except.ok.inj (hQ'.decoded.symm.trans hP')
  refine ⟨?_, fun ha hnym => hQ.extract_opens hQ' hA hB hD hT1 hT2 hc ha hnym, ?_⟩
  · rw [hQ.keyIndependent_iff]
    constructor
    · rintro ⟨-, ha⟩
      exact ha
    · intro ha
      exact ⟨hQ.exists_opens ha, ha⟩
  · intro header disclosedMessages himpl
    obtain ⟨q, gs, scalars, dom, hcore⟩ := coreProofVerifyImpl_eq_true himpl
    obtain ⟨R, hR⟩ := (proofVerifyCore_eq_true_iff ..).1 hcore
    refine ⟨q, gs, scalars, dom, hcore, ?_⟩
    -- both calls read the number of hidden messages off the same octets
    have hu : undisclosedCount gs disclosedIndexes = undisclosedCount hGenerators disclosedIndexes := by
      have hlen := hR.length.symm.trans hQ.length
      exact Nat.eq_of_mul_eq_mul_right (Ciphersuite.octetScalarLength_pos cs) (Nat.add_left_cancel hlen)
    obtain rfl : R = Q := by
      have hdec := hR.decoded
      rw [hu] at hdec
      exact Except.ok.inj (hdec.symm.trans hQ.decoded)
    rw [hR.keyIndependent_iff]

end Soundness

/-! ## A group of order three -/

section OrderThree

/-- The field with three elements, paired with itself by multiplication. -/
def groupThree : Pairing 3 (ZMod 3) (ZMod 3) (ZMod 3) where
  pair a b := a * b
  gen := 1
  add_left := by decide
  smul_left := by decide
  add_right := by decide
  smul_right := by decide
  nondeg := by decide
  cyclic₁ := by decide
  cyclic₂ := by decide
  gen_ne := by decide
  order := by decide

/-- A residue in the last of `n + 1` octets. -/
def residueToBytes (n : ℕ) (a : ZMod 3) : List UInt8 := List.replicate n 0 ++ [UInt8.ofNat a.val]

def residueFromBytes (bytes : List UInt8) : Option (ZMod 3) := bytes.getLast?.map fun b => (b.toNat : ZMod 3)

theorem residue_decode (n : ℕ) (a : ZMod 3) : residueFromBytes (residueToBytes n a) = some a := by
  unfold residueFromBytes residueToBytes
  rw [getLast?_concat, Option.map_some]
  revert a
  decide

def suiteThree : Suite 3 (ZMod 3) (ZMod 3) (ZMod 3) where
  group := groupThree
  codec :=
    { pointToBytes := residueToBytes 47
      pointFromBytes := residueFromBytes
      scalarToBytes := residueToBytes 31
      scalarFromBytes := residueFromBytes
      point_length := by simp [residueToBytes]
      scalar_length := by simp [residueToBytes]
      point_decode := residue_decode 47
      scalar_decode := residue_decode 31 }
  p1Generator := 1
  publicKeyToBytes := residueToBytes 95
  expandMsgXmd := fun _ _ n => List.replicate n 0
  hashToCurve := fun _ _ => 1

/-- A challenge function that answers `c` throughout. -/
def constantHash (c : ZMod 3) : HashToScalar 3 := fun _ _ _ => .ok c

/-- A proof with identity `Abar` and `Bbar`, put together from `D = B` for a hidden message `0`. -/
def forgedProof (c : ZMod 3) : ProofParts 3 (ZMod 3) := ⟨0, 0, 2, 0, 0, -c, [1], c⟩

/-- Proofs by the holder of a signature under the key `1`. -/
def honestProof (c : ZMod 3) : ProofParts 3 (ZMod 3) := ⟨1, 1, 2, c, -c, -c, [1], c⟩

/-- The proof is accepted under both keys there are, by each entry point. -/
theorem forgedProof_accepted :
    (proofVerifyCore suiteThree (constantHash 1) 1 (serializeProof suiteThree (forgedProof 1)) 1 [1] [] [] 1
      [] none [] .bls12381Sha256 = .ok true ∧
    proofVerifyCore suiteThree (constantHash 2) 1 (serializeProof suiteThree (forgedProof 2)) 1 [1] [] [] 1
      [] none [] .bls12381Sha256 = .ok true ∧
    deserializeProof suiteThree (serializeProof suiteThree (forgedProof 1)) 1 = .ok (forgedProof 1) ∧
    deserializeProof suiteThree (serializeProof suiteThree (forgedProof 2)) 1 = .ok (forgedProof 2) ∧
    recomputeT1 (forgedProof 1) = recomputeT1 (forgedProof 2) ∧
    verifierT2 suiteThree 1 [1] [] [] 1 (forgedProof 1) = verifierT2 suiteThree 1 [1] [] [] 1 (forgedProof 2) ∧
    (forgedProof 1).challenge ≠ (forgedProof 2).challenge) ∧
    ¬((∃ msgs signature, Opens suiteThree 1 1 [1] [] [] 1 none msgs signature) ∧
      ¬KeyIndependent suiteThree 1 [1] [] [] 1 none (constantHash 1)
        (serializeProof suiteThree (forgedProof 1)) [] [] .bls12381Sha256) ∧
    ∀ w : ZMod 3, w ≠ 0 →
      proofVerify suiteThree (constantHash 1) w (serializeProof suiteThree (forgedProof 1)) [] [] [] [] =
        .ok true ∧
      coreProofVerifyWithPseudonym suiteThree (constantHash 1) w
        (serializeProof suiteThree (forgedProof 1)) [] [] [] [] [] 2 .bls12381Sha256 = .ok true := by
  refine ⟨by decide +kernel, ?_, by decide +kernel⟩
  rintro ⟨-, hbound⟩
  apply hbound
  unfold KeyIndependent
  decide +kernel

theorem honestProof_specialSound :
    Opens suiteThree 1 1 [1] [] [] 1 none (assemble [] [] 1 (extract (honestProof 1) (honestProof 2)).ms)
      (extractSignature (honestProof 1) (honestProof 2)) ∧
    ¬KeyIndependent suiteThree 1 [1] [] [] 1 none (constantHash 1)
      (serializeProof suiteThree (honestProof 1)) [] [] .bls12381Sha256 := by
  have h := proofVerifyCore_specialSound_iff suiteThree 1 1 [1] [] [] 1 none (constantHash 1) (constantHash 2)
    (serializeProof suiteThree (honestProof 1))
    (serializeProof suiteThree (honestProof 2)) [] [] [] .bls12381Sha256 (honestProof 1) (honestProof 2)
    (by decide +kernel) (by decide +kernel) (by decide +kernel) (by decide +kernel) rfl rfl rfl
    (by decide +kernel) (by decide +kernel) (by decide +kernel)
  have ha : (honestProof 1).abar ≠ 0 := by decide
  refine ⟨?_, (h.1.2 ha).2⟩
  have hcases := h.2.1 ha (by rintro op pseudonym ⟨⟩)
  exact (hcases.resolve_left (by decide +kernel)).resolve_left (by decide +kernel)

end OrderThree

end AffinidiTdk.Bbs
