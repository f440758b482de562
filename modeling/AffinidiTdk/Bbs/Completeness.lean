/-
What the prover writes, the verifier accepts: the octets of a proof decode to its parts, and from these and the
disclosed messages the verifier recomputes `T1`, `T2` and `Ut` of the prover.
-/
import AffinidiTdk.Bbs.Accept
import AffinidiTdk.Bbs.Sign

namespace AffinidiTdk.Bbs

open List
open Bilinear Fallible

variable {p : ℕ} [Fact p.Prime] {G₁ G₂ GT : Type} [AddCommGroup G₁] [Module (ZMod p) G₁]
  [AddCommGroup G₂] [Module (ZMod p) G₂] [AddCommGroup GT] [Module (ZMod p) GT]
  {S : Suite p G₁ G₂ GT}

/-! ## The octets of a proof -/

section Octets

variable {buf after : List UInt8}

theorem readPoint_append (before : List UInt8) {a : G₁} (h : buf = before ++ (S.codec.pointToBytes a ++ after))
    {offset : ℕ}
    (hoffset : before.length = offset) (err : String) : readPoint S buf offset err = .ok a := by
  subst h hoffset
  unfold readPoint
  rw [drop_left, take_left' (S.codec.point_length a), S.codec.point_decode]

theorem readScalar_append (before : List UInt8) {s : ZMod p}
    (h : buf = before ++ (S.codec.scalarToBytes s ++ after)) {offset : ℕ}
    (hoffset : before.length = offset) : readScalar S buf offset = .ok (s, offset + 32) := by
  subst h hoffset
  have hlen := S.codec.scalar_length s
  unfold readScalar
  rw [if_neg (by simp [hlen]), drop_left, take_left' hlen, S.codec.scalar_decode]

theorem readScalars_append (before : List UInt8) {ms : List (ZMod p)}
    (h : buf = before ++ (ms.flatMap S.codec.scalarToBytes ++ after)) {offset : ℕ}
      (hoffset : before.length = offset) :
    readScalars S buf ms.length offset = .ok (ms, offset + 32 * ms.length) := by
  induction ms generalizing before offset with
  | nil => rfl
  | cons m ms ih =>
    rw [flatMap_cons, append_assoc] at h
    have hrest := ih (before ++ S.codec.scalarToBytes m) (by rw [h, append_assoc])
      (show _ = offset + 32 by rw [length_append, S.codec.scalar_length, hoffset])
    rw [length_cons, readScalars, readScalar_append before h hoffset, ok_bind]
    dsimp only
    rw [hrest, ok_bind]
    dsimp only
    rw [show offset + 32 + 32 * ms.length = offset + 32 * (ms.length + 1) by omega]
    rfl

theorem length_flatMap_scalarToBytes (ms : List (ZMod p)) :
    (ms.flatMap S.codec.scalarToBytes).length = 32 * ms.length := by
  induction ms with
  | nil => rfl
  | cons m ms ih =>
    rw [flatMap_cons, length_append, S.codec.scalar_length, ih, length_cons]
    omega

variable (S) in
theorem length_serializeProof (P : ProofParts p G₁) :
    (serializeProof S P).length = 3 * 48 + 4 * 32 + P.mHats.length * 32 := by
  unfold serializeProof
  simp only [length_append, S.codec.point_length, S.codec.scalar_length, length_flatMap_scalarToBytes]
  omega

variable (S) in
theorem deserializeProof_serializeProof {P : ProofParts p G₁} (hchallenge : P.challenge ≠ 0) :
    deserializeProof S (serializeProof S P) P.mHats.length = .ok P := by
  let pt := S.codec.pointToBytes
  let sc := S.codec.scalarToBytes
  have hpoint := S.codec.point_length
  have hscalar := S.codec.scalar_length
  have habar (e : String) : readPoint S (serializeProof S P) 0 e = .ok P.abar :=
    readPoint_append [] (by simp only [serializeProof, append_assoc, nil_append]; rfl) rfl e
  have hbbar (e : String) : readPoint S (serializeProof S P) 48 e = .ok P.bbar :=
    readPoint_append (pt P.abar) (by simp only [serializeProof, append_assoc]; rfl) (hpoint _) e
  have hd (e : String) : readPoint S (serializeProof S P) 96 e = .ok P.d :=
    readPoint_append (pt P.abar ++ pt P.bbar) (by simp only [serializeProof, append_assoc]; rfl)
      (by simp [pt, hpoint]) e
  have heHat : readScalar S (serializeProof S P) 144 = .ok (P.eHat, 176) :=
    readScalar_append (pt P.abar ++ pt P.bbar ++ pt P.d) (by simp only [serializeProof, append_assoc]; rfl)
      (by simp [pt, hpoint])
  have hr1Hat : readScalar S (serializeProof S P) 176 = .ok (P.r1Hat, 208) :=
    readScalar_append (pt P.abar ++ pt P.bbar ++ pt P.d ++ sc P.eHat)
      (by simp only [serializeProof, append_assoc]; rfl) (by simp [pt, sc, hpoint, hscalar])
  have hr3Hat : readScalar S (serializeProof S P) 208 = .ok (P.r3Hat, 240) :=
    readScalar_append (pt P.abar ++ pt P.bbar ++ pt P.d ++ sc P.eHat ++ sc P.r1Hat)
      (by simp only [serializeProof, append_assoc]; rfl) (by simp [pt, sc, hpoint, hscalar])
  have hmHats : readScalars S (serializeProof S P) P.mHats.length 240 = .ok (P.mHats, 240 + 32 * P.mHats.length) :=
    readScalars_append (pt P.abar ++ pt P.bbar ++ pt P.d ++ sc P.eHat ++ sc P.r1Hat ++ sc P.r3Hat)
      (by simp only [serializeProof, append_assoc]; rfl) (by simp [pt, sc, hpoint, hscalar])
  have hc : readScalar S (serializeProof S P) (240 + 32 * P.mHats.length) =
      .ok (P.challenge, 240 + 32 * P.mHats.length + 32) :=
    @readScalar_append _ _ _ _ _ _ _ _ _ _ _ S _ []
      (pt P.abar ++ pt P.bbar ++ pt P.d ++ sc P.eHat ++ sc P.r1Hat ++ sc P.r3Hat ++ P.mHats.flatMap sc) _
      (by simp only [serializeProof, append_assoc, append_nil]; rfl) _
      (by simp only [length_append, pt, sc, hpoint, hscalar, length_flatMap_scalarToBytes])
  unfold deserializeProof
  rw [habar, ok_bind, hbbar, ok_bind, hd, ok_bind, heHat, ok_bind]
  dsimp only
  rw [hr1Hat, ok_bind]
  dsimp only
  rw [hr3Hat, ok_bind]
  dsimp only
  rw [hmHats, ok_bind]
  dsimp only
  rw [hc, ok_bind]
  dsimp only
  rw [if_neg hchallenge]
  rfl

end Octets

/-! ## The prover's points -/

section Points

variable {q1 : G₁} {hGenerators : List G₁} {disclosedIndexes : List ℕ} {msgScalars : List (ZMod p)} {domain : ZMod p}

/-- The messages at a list of indexes. -/
def scalarsAt (msgScalars : List (ZMod p)) (indexes : List ℕ) : List (ZMod p) :=
    indexes.map fun i => msgScalars.getD i 0

theorem scalarsAt_getD {indexes : List ℕ} {k : ℕ} (hk : k < indexes.length) :
    (scalarsAt msgScalars indexes).getD k 0 = msgScalars.getD (indexes.getD k 0) 0 := by
  simp [scalarsAt, getD_eq_getElem?_getD, hk]

theorem assemble_scalarsAt :
    assemble disclosedIndexes (scalarsAt msgScalars disclosedIndexes) msgScalars.length
      (scalarsAt msgScalars (undisclosedIndexes msgScalars.length disclosedIndexes)) = msgScalars := by
  apply ext_getElem
  · rw [assemble_length]
  · intro i hi hi'
    have hget : ∀ (xs : List (ZMod p)) (h : i < xs.length), xs[i] = xs.getD i 0 := fun xs h => by
      simp [getD_eq_getElem?_getD, h]
    have hat : ∀ indexes : List ℕ, i ∈ indexes →
        (scalarsAt msgScalars indexes).getD (indexes.idxOf i) 0 = msgScalars.getD i 0 := by
      intro indexes hmem
      have hidx := idxOf_lt_length_of_mem hmem
      rw [scalarsAt_getD hidx]
      simp [getD_eq_getElem?_getD, hidx]
    rw [hget _ hi, hget _ hi', assemble_getD _ _ hi']
    by_cases hmem : i ∈ disclosedIndexes
    · rw [if_pos hmem, hat _ hmem]
    · rw [if_neg hmem, hat _ ((mem_undisclosedIndexes _).2 ⟨hi', hmem⟩)]

theorem undisclosedSum_responses (mTildes : List (ZMod p)) (c : ZMod p) :
    undisclosedSum hGenerators disclosedIndexes
    ((undisclosedIndexes hGenerators.length disclosedIndexes).zipIdx.map fun j => mTildes.getD j.2 0 + c *
    msgScalars.getD j.1 0) = undisclosedSum hGenerators disclosedIndexes mTildes + c • undisclosedSum hGenerators
    disclosedIndexes (scalarsAt msgScalars (undisclosedIndexes hGenerators.length disclosedIndexes)) := by
  have hnodup := nodup_undisclosedIndexes disclosedIndexes hGenerators.length
  unfold undisclosedSum
  generalize undisclosedIndexes hGenerators.length disclosedIndexes = indexes at hnodup ⊢
  rw [sum_zipIdx_eq indexes hnodup fun j k => (indexes.zipIdx.map fun j => mTildes.getD j.2 0 +
      c * msgScalars.getD j.1 0).getD k 0 • hGenerators.getD j 0,
    sum_zipIdx_eq indexes hnodup fun j k => mTildes.getD k 0 • hGenerators.getD j 0,
    sum_zipIdx_eq indexes hnodup fun j k => (scalarsAt msgScalars indexes).getD k 0 • hGenerators.getD j 0,
    Finset.smul_sum, ← Finset.sum_add_distrib]
  refine Finset.sum_congr rfl fun i hi => ?_
  have hidx := idxOf_lt_length_of_mem (mem_toFinset.1 hi)
  have hresponse : (indexes.zipIdx.map fun j => mTildes.getD j.2 0 + c * msgScalars.getD j.1 0).getD
    (indexes.idxOf i) 0 =
      mTildes.getD (indexes.idxOf i) 0 + c * msgScalars.getD i 0 := by
    simp [getD_eq_getElem?_getD, hidx]
  have hscalar : (scalarsAt msgScalars indexes).getD (indexes.idxOf i) 0 = msgScalars.getD i 0 := by
    rw [scalarsAt_getD hidx]
    simp [getD_eq_getElem?_getD, hidx]
  rw [hresponse, hscalar]
  module

variable (hlt : ∀ i ∈ disclosedIndexes, i < hGenerators.length) (hnd : disclosedIndexes.Nodup)
  (hlen : msgScalars.length = hGenerators.length)
include hlt hnd hlen

theorem computeB_disclosed : computeB S q1 domain hGenerators msgScalars = recomputeBv S q1 hGenerators
    disclosedIndexes (scalarsAt msgScalars disclosedIndexes) domain + undisclosedSum hGenerators disclosedIndexes
    (scalarsAt msgScalars (undisclosedIndexes hGenerators.length disclosedIndexes)) := by
  have h := @computeB_assemble _ _ _ _ _ _ _ _ _ _ _ S q1 hGenerators disclosedIndexes
    (scalarsAt msgScalars disclosedIndexes) domain hlt hnd
    (scalarsAt msgScalars (undisclosedIndexes hGenerators.length disclosedIndexes))
  rwa [← hlen, assemble_scalarsAt, hlen] at h

end Points

/-! ## The parts of a proof -/

section Parts

variable [DecidableEq G₁] [DecidableEq G₂] [DecidableEq GT] {hash : HashToScalar p} {q1 : G₁} {hGenerators : List G₁}
  {disclosedIndexes : List ℕ} {msgScalars : List (ZMod p)} {domain : ZMod p} {presentationHeader : List UInt8}
  {apiId : List UInt8} {cs : Ciphersuite}

variable (S) in
/-- The parts that the prover writes, for a challenge. -/
def proverParts (signature : Signature p G₁) (q1 : G₁) (hGenerators : List G₁) (msgScalars : List (ZMod p))
    (domain : ZMod p) (disclosedIndexes : List ℕ) (r : ProofRandomScalars p) (challenge : ZMod p) :
      ProofParts p G₁ where
  abar := (r.r1 * r.r2) • signature.a
  bbar := r.r1 • r.r2 • computeB S q1 domain hGenerators msgScalars - signature.e • (r.r1 * r.r2) • signature.a
  d := r.r2 • computeB S q1 domain hGenerators msgScalars
  eHat := r.eTilde + challenge * signature.e
  r1Hat := r.r1Tilde - challenge * r.r1
  r3Hat := r.r3Tilde - challenge * r.r2⁻¹
  mHats := (undisclosedIndexes msgScalars.length disclosedIndexes).zipIdx.map fun j =>
    r.mTildes.getD j.2 0 + challenge * msgScalars.getD j.1 0
  challenge := challenge

variable {signature : Signature p G₁} {r : ProofRandomScalars p} {c : ZMod p}

omit [DecidableEq G₁] [DecidableEq G₂] [DecidableEq GT] in
theorem recomputeT1_proverParts :
    recomputeT1 (proverParts S signature q1 hGenerators msgScalars domain disclosedIndexes r c) =
      r.eTilde • (r.r1 * r.r2) • signature.a + r.r1Tilde • r.r2 • computeB S q1 domain hGenerators msgScalars := by
  unfold recomputeT1 proverParts
  module

omit [DecidableEq G₁] [DecidableEq G₂] [DecidableEq GT] in
theorem recomputeT2_proverParts (hlt : ∀ i ∈ disclosedIndexes, i < hGenerators.length)
    (hnd : disclosedIndexes.Nodup) (hlen : msgScalars.length = hGenerators.length) (hr2 : r.r2 ≠ 0) :
    verifierT2 S q1 hGenerators disclosedIndexes (scalarsAt msgScalars disclosedIndexes) domain
    (proverParts S signature q1 hGenerators msgScalars domain disclosedIndexes r c) = r.r3Tilde • r.r2 • computeB S
    q1 domain hGenerators msgScalars + undisclosedSum hGenerators disclosedIndexes r.mTildes := by
  have hb := @computeB_disclosed _ _ _ _ _ _ _ _ _ _ _ S q1 hGenerators disclosedIndexes msgScalars domain hlt
    hnd hlen
  have hsum := @undisclosedSum_responses _ _ _ _ _ hGenerators disclosedIndexes msgScalars r.mTildes c
  let mHats := (undisclosedIndexes hGenerators.length disclosedIndexes).zipIdx.map fun j =>
    r.mTildes.getD j.2 0 + c * msgScalars.getD j.1 0
  unfold verifierT2 recomputeT2 proverParts
  rw [hlen, foldl_add_eq fun j : ℕ × ℕ => mHats.getD j.2 0 • hGenerators.getD j.1 0]
  change _ + undisclosedSum hGenerators disclosedIndexes mHats = _
  rw [hsum]
  -- what the challenge multiplies is `B` on both sides
  have hcancel : (c * r.r2⁻¹) • r.r2 • computeB S q1 domain hGenerators msgScalars =
      c • computeB S q1 domain hGenerators msgScalars := by
    rw [smul_smul, mul_assoc, inv_mul_cancel₀ hr2, mul_one]
  rw [sub_smul, hcancel, hb]
  module

omit [DecidableEq G₁] [DecidableEq G₂] [DecidableEq GT] in
theorem paired_proverParts {sk : ZMod p}
    (hsig : (sk + signature.e) • signature.a = computeB S q1 domain hGenerators msgScalars) :
    S.group.pair (proverParts S signature q1 hGenerators msgScalars domain disclosedIndexes r c).abar
    (sk • S.group.gen) = S.group.pair (proverParts S signature q1 hGenerators msgScalars domain disclosedIndexes r
    c).bbar S.group.gen := by
  rw [S.group.pair_key_iff]
  unfold proverParts
  rw [← hsig]
  module

omit [DecidableEq G₂] [DecidableEq GT] in
theorem nymTerms_proverParts (hlt : ∀ i ∈ disclosedIndexes, i < hGenerators.length) (hnd : disclosedIndexes.Nodup)
    (hlen : msgScalars.length = hGenerators.length) {nymOp : Option G₁} {terms : Option (G₁ × G₁ × G₁)}
    (hterms : proverNymTerms disclosedIndexes msgScalars r.mTildes
      (undisclosedIndexes msgScalars.length disclosedIndexes).length nymOp = .ok terms) :
    nymTerms hGenerators.length (undisclosedCount hGenerators disclosedIndexes) disclosedIndexes
      (proverParts S signature q1 hGenerators msgScalars domain disclosedIndexes r c)
      (nymOp.map fun op => (op, msgScalars.getD (msgScalars.length - 1) 0 • op)) = .ok (some terms) := by
  cases nymOp with
  | none =>
    cases hterms
    rfl
  | some op =>
    rw [hlen] at hterms ⊢
    have hcount : undisclosedCount hGenerators disclosedIndexes =
        (undisclosedIndexes hGenerators.length disclosedIndexes).length := (length_undisclosedIndexes hlt hnd).symm
    unfold proverNymTerms at hterms
    dsimp only at hterms
    split at hterms
    · cases hterms
    · rename_i hnot
      split at hterms
      · cases hterms
      · rename_i hpoints
        obtain ⟨hpseudonym, hut⟩ := not_or.1 hpoints
        cases hterms
        rw [hlen] at hnot hpseudonym ⊢
        have hl : hGenerators.length ≠ 0 := by
          intro hzero
          rw [length_eq_zero_iff.1 (hlen.trans hzero)] at hpseudonym
          exact hpseudonym (zero_smul _ op)
        have hlast : hGenerators.length - 1 ∉ disclosedIndexes := by simpa using hnot
        have hop : op ≠ 0 := fun hzero => hpseudonym (by rw [hzero, smul_zero])
        -- the last message is the last of the undisclosed ones
        have hmem : hGenerators.length - 1 ∈ undisclosedIndexes hGenerators.length disclosedIndexes :=
          (mem_undisclosedIndexes _).2 ⟨by omega, hlast⟩
        have hidx := idxOf_last_undisclosed hl hlast
        have hpos := idxOf_lt_length_of_mem hmem
        have hresponse : (proverParts S signature q1 hGenerators msgScalars domain disclosedIndexes r c).mHats.getD
              ((undisclosedIndexes hGenerators.length disclosedIndexes).length - 1) 0 =
            r.mTildes.getD ((undisclosedIndexes hGenerators.length disclosedIndexes).length - 1) 0 +
              c * msgScalars.getD (hGenerators.length - 1) 0 := by
          unfold proverParts
          rw [hlen, ← hidx]
          simp [getD_eq_getElem?_getD, hpos]
        have huv : (proverParts S signature q1 hGenerators msgScalars domain disclosedIndexes r c).mHats.getD
              ((undisclosedIndexes hGenerators.length disclosedIndexes).length - 1) 0 • op -
              (proverParts S signature q1 hGenerators msgScalars domain disclosedIndexes r c).challenge •
                msgScalars.getD (hGenerators.length - 1) 0 • op =
            r.mTildes.getD ((undisclosedIndexes hGenerators.length disclosedIndexes).length - 1) 0 • op := by
          rw [hresponse]
          show _ - c • _ = _
          module
        rw [hcount]
        unfold nymTerms
        dsimp only [Option.map]
        rw [if_neg (by omega), if_neg hnot, if_neg (not_or.2 ⟨hop, hpseudonym⟩)]
        simp only [huv, hut, if_false]

omit [DecidableEq G₁] in
theorem proverT2_eq (hlen : msgScalars.length = hGenerators.length) (d : G₁) :
    (undisclosedIndexes msgScalars.length disclosedIndexes).zipIdx.foldl
        (fun t2 j => t2 + r.mTildes.getD j.2 0 • hGenerators.getD j.1 0) (r.r3Tilde • d) =
      r.r3Tilde • d + undisclosedSum hGenerators disclosedIndexes r.mTildes := by
  rw [hlen, foldl_add_eq fun j : ℕ × ℕ => r.mTildes.getD j.2 0 • hGenerators.getD j.1 0]
  rfl

omit [DecidableEq G₂] [DecidableEq GT] in
theorem proofGenCore_eq {nymOp : Option G₁} {terms : Option (G₁ × G₁ × G₁)}
    (hlt : ∀ i ∈ disclosedIndexes, i < hGenerators.length) (hnd : disclosedIndexes.Nodup)
    (hlen : msgScalars.length = hGenerators.length)
    (hterms : proverNymTerms disclosedIndexes msgScalars r.mTildes
    (undisclosedIndexes msgScalars.length disclosedIndexes).length nymOp = .ok terms)
    (hchallenge : computeChallenge S hash ((r.r1 * r.r2) • signature.a)
    (r.r1 • r.r2 • computeB S q1 domain hGenerators msgScalars - signature.e • (r.r1 * r.r2) • signature.a)
    (r.r2 • computeB S q1 domain hGenerators msgScalars)
    (r.eTilde • (r.r1 * r.r2) • signature.a + r.r1Tilde • r.r2 • computeB S q1 domain hGenerators msgScalars)
    (r.r3Tilde • r.r2 • computeB S q1 domain hGenerators msgScalars + undisclosedSum hGenerators disclosedIndexes
    r.mTildes) disclosedIndexes (scalarsAt msgScalars disclosedIndexes) domain presentationHeader terms apiId cs =
    .ok c) : proofGenCore S hash signature q1 hGenerators msgScalars domain presentationHeader disclosedIndexes r
    nymOp apiId cs =
    .ok (serializeProof S (proverParts S signature q1 hGenerators msgScalars domain disclosedIndexes r c),
    terms.map Prod.fst) := by
  have hindexes : checkIndexes msgScalars.length disclosedIndexes [] = .ok () := by
    rw [hlen, checkIndexes_eq_ok_iff]
    exact ⟨fun i hi => ⟨hlt i hi, not_mem_nil⟩, hnd⟩
  unfold proofGenCore
  dsimp only
  rw [hindexes, ok_bind]
  rw [proverT2_eq hlen, hterms, ok_bind]
  unfold scalarsAt at hchallenge
  rw [hchallenge, ok_bind]
  rfl

/-- A proof over a signature on these messages is accepted with the disclosed ones. -/
theorem proofVerifyCore_proofGenCore {sk : ZMod p} {nymOp : Option G₁} {terms : Option (G₁ × G₁ × G₁)}
    (hpk : sk • S.group.gen ≠ 0)
    (hsig : (sk + signature.e) • signature.a = computeB S q1 domain hGenerators msgScalars)
    (hlt : ∀ i ∈ disclosedIndexes, i < hGenerators.length) (hnd : disclosedIndexes.Nodup)
    (hlen : msgScalars.length = hGenerators.length) (hr2 : r.r2 ≠ 0)
    (hterms : proverNymTerms disclosedIndexes msgScalars r.mTildes
    (undisclosedIndexes msgScalars.length disclosedIndexes).length nymOp = .ok terms)
    (hhash : ∀ data dst, ∃ s, hash data dst .bls12381Sha256 = .ok s) : ∃ P : ProofParts p G₁, proofGenCore S hash
    signature q1 hGenerators msgScalars domain presentationHeader disclosedIndexes r nymOp apiId .bls12381Sha256 =
    .ok (serializeProof S P, terms.map Prod.fst) ∧ P.mHats.length =
    (undisclosedIndexes msgScalars.length disclosedIndexes).length ∧
    (∃ data dst, hash data dst .bls12381Sha256 = .ok P.challenge) ∧
    (P.challenge ≠ 0 → proofVerifyCore S hash (sk • S.group.gen) (serializeProof S P) q1 hGenerators
    disclosedIndexes (scalarsAt msgScalars disclosedIndexes) domain presentationHeader
    (nymOp.map fun op => (op, msgScalars.getD (msgScalars.length - 1) 0 • op)) apiId .bls12381Sha256 =
    .ok true) := by
  obtain ⟨c, hc⟩ := hhash (challengeOctets S ((r.r1 * r.r2) • signature.a)
    (r.r1 • r.r2 • computeB S q1 domain hGenerators msgScalars - signature.e • (r.r1 * r.r2) • signature.a)
    (r.r2 • computeB S q1 domain hGenerators msgScalars)
    (r.eTilde • (r.r1 * r.r2) • signature.a + r.r1Tilde • r.r2 • computeB S q1 domain hGenerators msgScalars)
    (r.r3Tilde • r.r2 • computeB S q1 domain hGenerators msgScalars +
      undisclosedSum hGenerators disclosedIndexes r.mTildes)
    disclosedIndexes (scalarsAt msgScalars disclosedIndexes) domain presentationHeader terms) (apiId ++ ascii "H2S_")
  have hmHats : (proverParts S signature q1 hGenerators msgScalars domain disclosedIndexes r c).mHats.length =
      (undisclosedIndexes msgScalars.length disclosedIndexes).length := by
    simp [proverParts]
  refine ⟨proverParts S signature q1 hGenerators msgScalars domain disclosedIndexes r c,
    proofGenCore_eq hlt hnd hlen hterms hc, hmHats, ⟨_, _, hc⟩, fun hchallenge => ?_⟩
  have hcount : undisclosedCount hGenerators disclosedIndexes =
      (proverParts S signature q1 hGenerators msgScalars domain disclosedIndexes r c).mHats.length := by
    rw [hmHats, hlen, length_undisclosedIndexes hlt hnd]
    rfl
  rw [proofVerifyCore_eq_true_iff]
  refine ⟨proverParts S signature q1 hGenerators msgScalars domain disclosedIndexes r c, ?_⟩
  constructor
  · exact hpk
  · rw [length_serializeProof, hcount]
    rfl
  · have hsub := hnd.length_le_of_subset fun i hi => mem_range.2 (hlt i hi)
    rwa [length_range] at hsub
  · simp [scalarsAt]
  · rw [checkIndexes_eq_ok_iff]
    exact ⟨fun i hi => ⟨hlt i hi, not_mem_nil⟩, hnd⟩
  · rw [hcount]
    exact deserializeProof_serializeProof S hchallenge
  · refine ⟨terms, nymTerms_proverParts hlt hnd hlen hterms, ?_⟩
    rw [recomputeT1_proverParts, recomputeT2_proverParts hlt hnd hlen hr2]
    exact hc
  · exact paired_proverParts hsig

end Parts

end AffinidiTdk.Bbs
