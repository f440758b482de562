/-
What `proof_verify_core` accepts: every check on the way to `Ok(true)` as one structure, equivalent
to acceptance, and the message sums of the verifier split into disclosed and undisclosed parts.
-/
import AffinidiTdk.Lib.Except
import AffinidiTdk.Bbs.Proof

namespace AffinidiTdk.Bbs

open List
open Bilinear Fallible

section Sums

variable {p : ℕ} [Fact p.Prime] {G₁ : Type} [AddCommGroup G₁] [Module (ZMod p) G₁]

/-! ## The folds as sums -/

theorem foldl_add_eq {α : Type} (f : α → G₁) (xs : List α) (a : G₁) :
    xs.foldl (fun b m => b + f m) a = a + (xs.map f).sum := by
  induction xs generalizing a with
  | nil => simp
  | cons x xs ih => rw [foldl_cons, ih, map_cons, sum_cons, add_assoc]

theorem zipIdx_eq_map_range {α : Type} (xs : List α) (d : α) :
    xs.zipIdx = (List.range xs.length).map fun i => (xs.getD i d, i) := by
  apply ext_getElem
  · simp
  · intro i h1 h2
    have hi : i < xs.length := by simpa using h1
    simp [getD_eq_getElem?_getD, hi]

theorem sum_zipIdx_eq {M : Type} [AddCommMonoid M] (idxs : List ℕ) (hnd : idxs.Nodup) (F : ℕ → ℕ → M) :
    (idxs.zipIdx.map fun i => F i.1 i.2).sum = ∑ i ∈ idxs.toFinset, F i (idxs.idxOf i) := by
  rw [sum_toFinset _ hnd]
  congr 1
  apply ext_getElem
  · simp
  · intro k h1 h2
    have hk : k < idxs.length := by simpa using h1
    simp [hnd.idxOf_getElem k hk]

end Sums

section Accept

variable {p : ℕ} [Fact p.Prime] {G₁ G₂ GT : Type} [AddCommGroup G₁] [Module (ZMod p) G₁]
  [AddCommGroup G₂] [Module (ZMod p) G₂] [AddCommGroup GT] [Module (ZMod p) GT]
  [DecidableEq G₁] [DecidableEq G₂] [DecidableEq GT]
  (S : Suite p G₁ G₂ GT) (hash : HashToScalar p) (pk : G₂) (proofBytes : List UInt8) (q1 : G₁)
  (hGenerators : List G₁) (disclosedIndexes : List ℕ) (disclosedScalars : List (ZMod p))
  (domain : ZMod p) (presentationHeader : List UInt8) (nym : Option (G₁ × G₁))
  (apiId : List UInt8) (cs : Ciphersuite)

/-! ## What the verifier accepts -/

/-- `u`, the number of undisclosed messages. -/
def undisclosedCount : ℕ := hGenerators.length - disclosedIndexes.length

/-- The `T2` of the verifier, from the parts of a proof. -/
def verifierT2 (P : ProofParts p G₁) : G₁ :=
  recomputeT2 (recomputeBv S q1 hGenerators disclosedIndexes disclosedScalars domain) hGenerators
    (undisclosedIndexes hGenerators.length disclosedIndexes) P

/-- Every check on the way to `Ok(true)`, for the decoded parts `P`. -/
structure Accepted (P : ProofParts p G₁) : Prop where
  key : pk ≠ 0
  length : proofBytes.length = 3 * cs.octetPointLength + 4 * cs.octetScalarLength +
    undisclosedCount hGenerators disclosedIndexes * cs.octetScalarLength
  count : disclosedIndexes.length ≤ hGenerators.length
  scalars : disclosedScalars.length = disclosedIndexes.length
  indexes : checkIndexes hGenerators.length disclosedIndexes [] = .ok ()
  decoded : deserializeProof S proofBytes (undisclosedCount hGenerators disclosedIndexes) = .ok P
  challenge : ∃ terms,
    nymTerms hGenerators.length (undisclosedCount hGenerators disclosedIndexes) disclosedIndexes P nym =
      .ok (some terms) ∧
    computeChallenge S hash P.abar P.bbar P.d (recomputeT1 P)
      (verifierT2 S q1 hGenerators disclosedIndexes disclosedScalars domain P) disclosedIndexes
      disclosedScalars domain presentationHeader terms apiId cs = .ok P.challenge
  paired : S.group.pair P.abar pk = S.group.pair P.bbar S.group.gen

theorem Ciphersuite.octetScalarLength_pos : 0 < cs.octetScalarLength := by
  cases cs <;> decide

omit [DecidableEq G₁] [DecidableEq G₂] [DecidableEq GT] in
theorem pair_add_neg_eq_zero_iff (P : Pairing p G₁ G₂ GT) (a b : G₁) (v w : G₂) :
    P.pair a v + P.pair (-b) w = 0 ↔ P.pair a v = P.pair b w := by
  rw [P.neg_left, ← sub_eq_add_neg, sub_eq_zero]

theorem length_canonical_iff {n r l m s : ℕ} (hs : 0 < s) :
    (¬n < m ∧ ¬(n - m) % s ≠ 0 ∧ ¬l ≠ r + (n - m) / s) ↔ n = m + (l - r) * s ∧ r ≤ l := by
  constructor
  · rintro ⟨hmin, hmod, hl⟩
    have hmod : (n - m) % s = 0 := not_not.1 hmod
    have hl : l = r + (n - m) / s := not_not.1 hl
    have hdiv : (n - m) / s * s = n - m := Nat.div_mul_cancel (Nat.dvd_of_mod_eq_zero hmod)
    generalize (n - m) / s = q at hl hdiv
    subst hl
    refine ⟨?_, Nat.le_add_right r q⟩
    rw [Nat.add_sub_cancel_left, hdiv]
    omega
  · rintro ⟨rfl, hr⟩
    have hsub : m + (l - r) * s - m = (l - r) * s := by omega
    rw [hsub, Nat.mul_mod_left, Nat.mul_div_cancel _ hs]
    refine ⟨by omega, by simp, by omega⟩

theorem proofVerifyCore_eq_true_iff : proofVerifyCore S hash pk proofBytes q1 hGenerators disclosedIndexes
    disclosedScalars domain presentationHeader nym apiId cs = .ok true ↔ ∃ P, Accepted S hash pk proofBytes q1
    hGenerators disclosedIndexes disclosedScalars domain presentationHeader nym apiId cs P := by
  unfold proofVerifyCore validatePublicKey
  simp only [bind_eq_ok_iff, guard_eq_ok_iff, ite_throw_eq_ok_iff, pure_eq_ok_iff]
  have hs := Ciphersuite.octetScalarLength_pos cs
  constructor
  · rintro ⟨_, ⟨hkey, -⟩, hmin, hmod, hl, hsc, _, hidx, P, hP, terms, hterms, hlast⟩
    obtain ⟨hlen, hr⟩ := (length_canonical_iff hs).1 ⟨hmin, hmod, hl⟩
    have hl : hGenerators.length = _ := not_not.1 hl
    rw [← hl] at hidx hterms hlast
    rw [show (proofBytes.length - _) / _ = undisclosedCount hGenerators disclosedIndexes by
      unfold undisclosedCount; omega] at hP hterms
    cases terms with
    | none => simp [pure_eq_ok_iff] at hlast
    | some terms =>
      obtain ⟨c, hc, hfin⟩ := bind_eq_ok_iff.1 hlast
      split at hfin
      · simp [pure_eq_ok_iff] at hfin
      · rename_i heq
        obtain rfl : P.challenge = c := not_not.1 heq
        rw [pure_eq_ok_iff, decide_eq_true_iff, pair_add_neg_eq_zero_iff] at hfin
        exact ⟨P, hkey, hlen, hr, not_not.1 hsc, hidx, hP, ⟨terms, hterms, hc⟩, hfin⟩
  · rintro ⟨P, hkey, hlen, hr, hsc, hidx, hP, ⟨terms, hterms, hc⟩, hpair⟩
    obtain ⟨hmin, hmod, hl⟩ := (length_canonical_iff hs).2 ⟨hlen, hr⟩
    have hu : (proofBytes.length - (3 * cs.octetPointLength + 4 * cs.octetScalarLength)) /
        cs.octetScalarLength = undisclosedCount hGenerators disclosedIndexes := by
      unfold undisclosedCount; omega
    refine ⟨(), ⟨hkey, trivial⟩, hmin, hmod, hl, not_not.2 hsc, (), ?_⟩
    rw [← not_not.1 hl, hu]
    refine ⟨hidx, P, hP, some terms, hterms, ?_⟩
    refine bind_eq_ok_iff.2 ⟨P.challenge, hc, ?_⟩
    rw [if_neg (not_not.2 rfl), pure_eq_ok_iff, decide_eq_true_iff, pair_add_neg_eq_zero_iff]
    exact hpair

end Accept
section Messages

variable {p : ℕ} [Fact p.Prime] {G₁ G₂ GT : Type} [AddCommGroup G₁] [Module (ZMod p) G₁]
  [AddCommGroup G₂] [Module (ZMod p) G₂] [AddCommGroup GT] [Module (ZMod p) GT]
  (S : Suite p G₁ G₂ GT) (q1 : G₁) (hGenerators : List G₁) (disclosedIndexes : List ℕ)
  (disclosedScalars : List (ZMod p)) (domain : ZMod p)

/-! ## Disclosed and undisclosed messages -/

theorem checkIndexes_eq_ok_iff (l : ℕ) (idxs seen : List ℕ) (u : Unit) :
    checkIndexes l idxs seen = .ok u ↔ (∀ i ∈ idxs, i < l ∧ i ∉ seen) ∧ idxs.Nodup := by
  induction idxs generalizing seen with
  | nil => simp [checkIndexes]
  | cons x xs ih =>
    unfold checkIndexes
    by_cases hx : x ≥ l
    · simp [hx, Nat.not_lt.2 hx]
    · by_cases hs : x ∈ seen
      · simp [hx, hs]
      · rw [if_neg hx, if_neg hs, ih]
        simp only [mem_cons, not_or, nodup_cons, forall_eq_or_imp]
        constructor
        · rintro ⟨h1, h2⟩
          exact ⟨⟨⟨Nat.lt_of_not_ge hx, hs⟩, fun i hi => ⟨(h1 i hi).1, (h1 i hi).2.2⟩⟩,
            fun hmem => (h1 x hmem).2.1 rfl, h2⟩
        · rintro ⟨⟨-, h1⟩, hnot, h2⟩
          exact ⟨fun i hi => ⟨(h1 i hi).1, fun he => hnot (he ▸ hi), (h1 i hi).2⟩, h2⟩

theorem nodup_undisclosedIndexes (l : ℕ) : (undisclosedIndexes l disclosedIndexes).Nodup :=
  nodup_range.filter _

theorem mem_undisclosedIndexes {l i : ℕ} :
    i ∈ undisclosedIndexes l disclosedIndexes ↔ i < l ∧ i ∉ disclosedIndexes := by
  simp [undisclosedIndexes]

/-- Scalars for every message: the disclosed ones at their indexes, the others in order. -/
def assemble (l : ℕ) (undisclosedScalars : List (ZMod p)) : List (ZMod p) :=
  (List.range l).map fun i =>
    if i ∈ disclosedIndexes then disclosedScalars.getD (disclosedIndexes.idxOf i) 0
    else undisclosedScalars.getD ((undisclosedIndexes l disclosedIndexes).idxOf i) 0

/-- The generators of the undisclosed messages, weighted. -/
def undisclosedSum (ms : List (ZMod p)) : G₁ :=
  ((undisclosedIndexes hGenerators.length disclosedIndexes).zipIdx.map
    fun j => ms.getD j.2 0 • hGenerators.getD j.1 0).sum

theorem assemble_length (l : ℕ) (ms : List (ZMod p)) :
    (assemble disclosedIndexes disclosedScalars l ms).length = l := by
  simp [assemble]

theorem assemble_getD {l i : ℕ} (hi : i < l) (ms : List (ZMod p)) :
    (assemble disclosedIndexes disclosedScalars l ms).getD i 0 =
      if i ∈ disclosedIndexes then disclosedScalars.getD (disclosedIndexes.idxOf i) 0
      else ms.getD ((undisclosedIndexes l disclosedIndexes).idxOf i) 0 := by
  simp [assemble, getD_eq_getElem?_getD, hi]

variable {disclosedIndexes}

theorem computeB_assemble (hlt : ∀ i ∈ disclosedIndexes, i < hGenerators.length) (hnd : disclosedIndexes.Nodup)
    (ms : List (ZMod p)) : computeB S q1 domain hGenerators
    (assemble disclosedIndexes disclosedScalars hGenerators.length ms) = recomputeBv S q1 hGenerators
    disclosedIndexes disclosedScalars domain + undisclosedSum hGenerators disclosedIndexes ms := by
  unfold computeB recomputeBv undisclosedSum
  rw [foldl_add_eq (fun m : ZMod p × ℕ => m.1 • hGenerators.getD m.2 0),
    foldl_add_eq (fun i : ℕ × ℕ => disclosedScalars.getD i.2 0 • hGenerators.getD i.1 0),
    add_assoc (S.p1Generator + domain • q1),
    sum_zipIdx_eq disclosedIndexes hnd fun i k => disclosedScalars.getD k 0 • hGenerators.getD i 0,
    sum_zipIdx_eq _ (nodup_undisclosedIndexes _ _) fun j k => ms.getD k 0 • hGenerators.getD j 0,
    zipIdx_eq_map_range _ 0, assemble_length, map_map]
  congr 1
  -- the indexes below `l` are the disclosed ones and the others
  have hsplit : Finset.range hGenerators.length = disclosedIndexes.toFinset ∪
      (undisclosedIndexes hGenerators.length disclosedIndexes).toFinset := by
    ext i
    simp only [Finset.mem_range, Finset.mem_union, mem_toFinset, mem_undisclosedIndexes]
    constructor
    · intro hi
      by_cases hd : i ∈ disclosedIndexes
      · exact .inl hd
      · exact .inr ⟨hi, hd⟩
    · rintro (hd | ⟨hi, -⟩)
      · exact hlt i hd
      · exact hi
  have hdisj : Disjoint disclosedIndexes.toFinset
      (undisclosedIndexes hGenerators.length disclosedIndexes).toFinset := by
    rw [Finset.disjoint_left]
    intro i hi hu
    exact (mem_undisclosedIndexes _).1 (mem_toFinset.1 hu) |>.2 (mem_toFinset.1 hi)
  have hrange := sum_toFinset (fun i =>
    (assemble disclosedIndexes disclosedScalars hGenerators.length ms).getD i 0 • hGenerators.getD i 0)
    (nodup_range (n := hGenerators.length))
  rw [Function.comp_def, ← hrange, toFinset_range, hsplit, Finset.sum_union hdisj]
  congr 1
  · apply Finset.sum_congr rfl
    intro i hi
    have hi := mem_toFinset.1 hi
    rw [assemble_getD _ _ (hlt i hi), if_pos hi]
  · apply Finset.sum_congr rfl
    intro i hi
    obtain ⟨hi, hnot⟩ := (mem_undisclosedIndexes _).1 (mem_toFinset.1 hi)
    rw [assemble_getD _ _ hi, if_neg hnot]

theorem length_undisclosedIndexes {l : ℕ} (hlt : ∀ i ∈ disclosedIndexes, i < l)
    (hnd : disclosedIndexes.Nodup) :
    (undisclosedIndexes l disclosedIndexes).length = l - disclosedIndexes.length := by
  have hset : (undisclosedIndexes l disclosedIndexes).toFinset =
      Finset.range l \ disclosedIndexes.toFinset := by
    ext i
    simp [mem_undisclosedIndexes]
  have hsub : disclosedIndexes.toFinset ⊆ Finset.range l := by
    intro i hi
    exact Finset.mem_range.2 (hlt i (mem_toFinset.1 hi))
  rw [← toFinset_card_of_nodup (nodup_undisclosedIndexes _ _), hset,
    Finset.card_sdiff_of_subset hsub, Finset.card_range, toFinset_card_of_nodup hnd]

theorem idxOf_last_undisclosed {l : ℕ} (hl : l ≠ 0) (hnot : l - 1 ∉ disclosedIndexes) :
    (undisclosedIndexes l disclosedIndexes).idxOf (l - 1) =
      (undisclosedIndexes l disclosedIndexes).length - 1 := by
  obtain ⟨n, rfl⟩ := Nat.exists_eq_succ_of_ne_zero hl
  have hsplit : undisclosedIndexes (n + 1) disclosedIndexes =
      undisclosedIndexes n disclosedIndexes ++ [n] := by
    unfold undisclosedIndexes
    rw [range_succ, filter_append]
    simpa using hnot
  have hn : n ∉ undisclosedIndexes n disclosedIndexes := by
    rw [mem_undisclosedIndexes]
    omega
  simp [Nat.succ_eq_add_one, hsplit, idxOf_append_of_notMem hn]

/-- The assembled messages are the disclosed ones at the disclosed indices. -/
theorem assemble_agrees {l : ℕ} (hlt : ∀ i ∈ disclosedIndexes, i < l) (hnd : disclosedIndexes.Nodup)
    (ms : List (ZMod p)) {k : ℕ} (hk : k < disclosedIndexes.length) :
    (assemble disclosedIndexes disclosedScalars l ms).getD (disclosedIndexes.getD k 0) 0 =
      disclosedScalars.getD k 0 := by
  have hget : disclosedIndexes.getD k 0 = disclosedIndexes[k] := by
    simp [getD_eq_getElem?_getD, hk]
  have hmem : disclosedIndexes[k] ∈ disclosedIndexes := getElem_mem hk
  rw [hget, assemble_getD _ _ (hlt _ hmem), if_pos hmem, hnd.idxOf_getElem k hk]

theorem assemble_last {l : ℕ} (hl : l ≠ 0) (hnot : l - 1 ∉ disclosedIndexes)
    (hlt : ∀ i ∈ disclosedIndexes, i < l) (hnd : disclosedIndexes.Nodup) (ms : List (ZMod p)) :
    (assemble disclosedIndexes disclosedScalars l ms).getD (l - 1) 0 =
      ms.getD (l - disclosedIndexes.length - 1) 0 := by
  rw [assemble_getD _ _ (by omega), if_neg hnot, idxOf_last_undisclosed hl hnot, length_undisclosedIndexes hlt hnd]

end Messages

end AffinidiTdk.Bbs
