/-
Documents with several proofs (`affinidi-data-integrity`, `multi.rs`): every proof is verified with the key
its verification method resolves to, and a policy decides on how many of them verify. A threshold is meant
for witnesses, but what is counted is proofs.
-/
import AffinidiTdk.Crypto.Keys
import AffinidiTdk.DataIntegrity.Unsigned

namespace AffinidiTdk.DataIntegrity

open List
open AffinidiTdk.Rdf AffinidiTdk.Jsonld
open AffinidiTdk.Crypto (KeyType)

/-! ## Verification with a resolver -/

/-- The public key a verification method resolves to. -/
structure ResolvedKey where
  keyType : KeyType
  publicKeyBytes : List UInt8

/-- The errors of a verification with a resolver. -/
inductive VerifyError
  | resolver (msg : String)
  | keyTypeMismatch (expected actual : KeyType) (suite : CryptoSuite)
  | proof (e : DataIntegrityError)

abbrev VerificationMethodResolver := String → Except VerifyError ResolvedKey

/-- The key types of a suite; none at all stands for every key type. -/
def CryptoSuite.compatibleKeyTypes : CryptoSuite → List KeyType
  | eddsaJcs2022 | eddsaRdfc2022 => [.ed25519]
  | bbs2023 => []
  | mlDsa44Jcs2024 | mlDsa44Rdfc2024 => [.mlDsa44]
  | slhDsa128Jcs2024 | slhDsa128Rdfc2024 => [.slhDsaSha2_128s]

/-- What one call of `verify_multi` finds in its surroundings. -/
structure Surroundings where
  prims : Primitives
  orders : Orders
  now : ℤ
  resolver : VerificationMethodResolver

/-- Verify a proof with the key of its verification method. -/
def DataIntegrityProof.verify (env : Surroundings) (proof : DataIntegrityProof) (dataDoc : Json)
    (options : VerifyOptions) : Except VerifyError Unit := do
  let resolved ← env.resolver proof.verificationMethod
  let compatible := proof.cryptosuite.compatibleKeyTypes
  if compatible ≠ [] ∧ resolved.keyType ∉ compatible then
    throw (.keyTypeMismatch (compatible.head?.getD .unknown) resolved.keyType proof.cryptosuite)
  (verifyProofInternal env.prims env.orders env.now proof dataDoc resolved.publicKeyBytes options).mapError .proof

/-! ## Several proofs -/

/-- How many of the proofs must verify. -/
inductive VerifyPolicy
  | requireAll
  | requireAny
  | requireThreshold (n : ℕ)

/-- Which proofs verified and whether the policy is met. -/
structure MultiVerifyResult where
  passed : List DataIntegrityProof
  failed : List (DataIntegrityProof × VerifyError)
  policySatisfied : Bool

/-- The proofs that verify, and those that do not with their errors. -/
def verifyEach (env : Surroundings) (dataDoc : Json) (options : VerifyOptions) (proofs : List DataIntegrityProof) :
    List DataIntegrityProof × List (DataIntegrityProof × VerifyError) :=
  proofs.foldl (fun (passed, failed) proof =>
    match proof.verify env dataDoc options with
    | .ok () => (passed ++ [proof], failed)
    | .error e => (passed, failed ++ [(proof, e)])) ([], [])

def verifyMulti (env : Surroundings) (proofs : List DataIntegrityProof) (dataDoc : Json) (options : VerifyOptions)
    (policy : VerifyPolicy) : MultiVerifyResult :=
  let (passed, failed) := verifyEach env dataDoc options proofs
  let policySatisfied :=
    match policy with
    | .requireAll => !proofs.isEmpty && failed.isEmpty
    | .requireAny => !passed.isEmpty
    | .requireThreshold n =>
      if n = 0 then !proofs.isEmpty && failed.isEmpty else decide (n ≤ passed.length)
  ⟨passed, failed, policySatisfied⟩

/-! ## What the policies count -/

section Counting

variable {env : Surroundings} {dataDoc : Json} {options : VerifyOptions} {proofs twin : List DataIntegrityProof}
  {policy : VerifyPolicy}

/-- A proof that verifies over the document. -/
def Verifies (env : Surroundings) (dataDoc : Json) (options : VerifyOptions) (proof : DataIntegrityProof) : Prop :=
  proof.verify env dataDoc options = .ok ()

instance (env : Surroundings) (dataDoc : Json) (options : VerifyOptions) :
    DecidablePred (Verifies env dataDoc options) := fun proof =>
  decidable_of_iff ((proof.verify env dataDoc options).toOption = some ()) <| by
    unfold Verifies
    cases proof.verify env dataDoc options <;> simp [Except.toOption]

/-- The proofs of a list that verify. -/
def verifying (env : Surroundings) (dataDoc : Json) (options : VerifyOptions) (proofs : List DataIntegrityProof) :
    List DataIntegrityProof :=
  proofs.filter fun proof => Verifies env dataDoc options proof

/-- The verification methods of the proofs that verify, each once. -/
def witnesses (env : Surroundings) (dataDoc : Json) (options : VerifyOptions) (proofs : List DataIntegrityProof) :
    List String :=
  ((verifying env dataDoc options proofs).map DataIntegrityProof.verificationMethod).dedup

theorem verifyEach_spec (env : Surroundings) (dataDoc : Json) (options : VerifyOptions)
    (proofs : List DataIntegrityProof) : (verifyEach env dataDoc options proofs).1 = verifying env dataDoc options
    proofs ∧ (verifyEach env dataDoc options proofs).2.map Prod.fst = proofs.filter fun proof => ¬Verifies env
    dataDoc options proof := by
  induction proofs using List.reverseRecOn with
  | nil => exact ⟨rfl, rfl⟩
  | append_singleton proofs proof ih =>
    obtain ⟨hpassed, hfailed⟩ := ih
    rw [verifyEach, foldl_append, ← verifyEach, foldl_cons, foldl_nil, verifying, filter_append,
      filter_append, ← hfailed, ← verifying, ← hpassed]
    cases hproof : proof.verify env dataDoc options with
    | ok u | error e => simp [hproof, Verifies]

theorem verifyEach_failed_isEmpty_iff :
    (verifyEach env dataDoc options proofs).2.isEmpty = true ↔ ∀ proof ∈ proofs,
      Verifies env dataDoc options proof := by
  have hfailed := (verifyEach_spec env dataDoc options proofs).2
  rw [List.isEmpty_iff, ← map_eq_nil_iff (f := Prod.fst), hfailed, filter_eq_nil_iff]
  simp

/-- The decision in terms of the proofs that verify. -/
def Satisfied (env : Surroundings) (dataDoc : Json) (options : VerifyOptions) (proofs : List DataIntegrityProof) :
    VerifyPolicy → Prop
  | .requireAny => verifying env dataDoc options proofs ≠ []
  | .requireThreshold (n + 1) => n + 1 ≤ (verifying env dataDoc options proofs).length
  | .requireAll | .requireThreshold 0 => proofs ≠ [] ∧ ∀ proof ∈ proofs, Verifies env dataDoc options proof

theorem policySatisfied_iff :
    (verifyMulti env proofs dataDoc options policy).policySatisfied = true ↔
      Satisfied env dataDoc options proofs policy := by
  have hpassed := (verifyEach_spec env dataDoc options proofs).1
  have hfailed : (verifyEach env dataDoc options proofs).2.isEmpty = true ↔
      ∀ proof ∈ proofs, Verifies env dataDoc options proof := verifyEach_failed_isEmpty_iff
  have hall : (!proofs.isEmpty && (verifyEach env dataDoc options proofs).2.isEmpty) = true ↔
      proofs ≠ [] ∧ ∀ proof ∈ proofs, Verifies env dataDoc options proof := by
    rw [Bool.and_eq_true, hfailed, Bool.not_eq_true', ← Bool.not_eq_true, List.isEmpty_iff]
  unfold verifyMulti
  rcases policy with _ | _ | _ | n
  · exact hall
  · show (!(verifyEach env dataDoc options proofs).1.isEmpty) = true ↔ _
    rw [hpassed, Bool.not_eq_true', ← Bool.not_eq_true, List.isEmpty_iff]
    rfl
  · exact hall
  · show decide (n + 1 ≤ (verifyEach env dataDoc options proofs).1.length) = true ↔ _
    rw [hpassed, decide_eq_true_iff]
    rfl

theorem satisfied_perm (h : twin.Perm proofs) :
    Satisfied env dataDoc options twin policy ↔ Satisfied env dataDoc options proofs policy := by
  have hverifying : (verifying env dataDoc options twin).Perm (verifying env dataDoc options proofs) := h.filter _
  have hnil : twin ≠ [] ↔ proofs ≠ [] := not_congr ⟨fun hn => (hn ▸ h).symm.eq_nil, fun hn => (hn ▸ h).eq_nil⟩
  have hall : (∀ proof ∈ twin, Verifies env dataDoc options proof) ↔
      ∀ proof ∈ proofs, Verifies env dataDoc options proof := forall_congr' fun proof => by rw [h.mem_iff]
  rcases policy with _ | _ | _ | n
  · exact and_congr hnil hall
  · exact not_congr ⟨fun hn => (hn ▸ hverifying).symm.eq_nil, fun hn => (hn ▸ hverifying).eq_nil⟩
  · exact and_congr hnil hall
  · show n + 1 ≤ _ ↔ n + 1 ≤ _
    rw [hverifying.length_eq]

/-- A threshold is met by one more proof where the one appended verifies; every other decision stays. -/
theorem satisfied_append {proof : DataIntegrityProof} (h : proof ∈ proofs) : Satisfied env dataDoc options
    (proofs ++ [proof]) policy ↔ Satisfied env dataDoc options proofs policy ∨ Verifies env dataDoc options proof ∧
    policy = .requireThreshold ((verifying env dataDoc options proofs).length + 1) := by
  have hall : (proofs ++ [proof] ≠ [] ∧ ∀ p ∈ proofs ++ [proof], Verifies env dataDoc options p) ↔
      proofs ≠ [] ∧ ∀ p ∈ proofs, Verifies env dataDoc options p := by
    refine ⟨fun hp => ⟨ne_nil_of_mem h, fun p hmem => hp.2 p (mem_append_left _ hmem)⟩,
      fun hp => ⟨by simp, fun p hmem => ?_⟩⟩
    rcases mem_append.1 hmem with hmem | hmem
    · exact hp.2 p hmem
    · exact mem_singleton.1 hmem ▸ hp.2 proof h
  have hverifying : verifying env dataDoc options (proofs ++ [proof]) =
      verifying env dataDoc options proofs ++ if Verifies env dataDoc options proof then [proof] else [] := by
    rw [verifying, filter_append, filter_singleton]
    by_cases hproof : Verifies env dataDoc options proof <;> simp [hproof, verifying]
  rcases policy with _ | _ | _ | n
  · exact hall.trans (by simp [Satisfied])
  · show verifying env dataDoc options (proofs ++ [proof]) ≠ [] ↔ _ ∨ _
    by_cases hproof : Verifies env dataDoc options proof
    · have hmem : proof ∈ verifying env dataDoc options proofs := mem_filter.2 ⟨h, by simpa using hproof⟩
      simp [hverifying, Satisfied, ne_nil_of_mem hmem]
    · simp [hverifying, hproof, Satisfied]
  · exact hall.trans (by simp [Satisfied])
  · show n + 1 ≤ (verifying env dataDoc options (proofs ++ [proof])).length ↔ n + 1 ≤ _ ∨ _
    by_cases hproof : Verifies env dataDoc options proof
    · rw [hverifying, if_pos hproof, length_append]
      simp only [hproof, true_and, VerifyPolicy.requireThreshold.injEq, length_singleton]
      omega
    · simp [hverifying, hproof]

/-! ## Thresholds of witnesses -/

/-- At least this many different verification methods each have a proof in the list that verifies. -/
def HasWitnesses (env : Surroundings) (dataDoc : Json) (options : VerifyOptions) (proofs : List DataIntegrityProof)
    (n : ℕ) : Prop :=
  ∃ methods : List String, methods.Nodup ∧ n ≤ methods.length ∧
    ∀ method ∈ methods, ∃ proof ∈ proofs, proof.verificationMethod = method ∧ Verifies env dataDoc options proof

theorem mem_witnesses {method : String} :
    method ∈ witnesses env dataDoc options proofs ↔
      ∃ proof ∈ proofs, proof.verificationMethod = method ∧ Verifies env dataDoc options proof := by
  simp only [witnesses, mem_dedup, mem_map, verifying, mem_filter, decide_eq_true_eq]
  exact exists_congr fun proof => and_assoc.trans (and_congr_right fun _ => and_comm)

theorem hasWitnesses_iff {n : ℕ} :
    HasWitnesses env dataDoc options proofs n ↔ n ≤ (witnesses env dataDoc options proofs).length := by
  constructor
  · rintro ⟨methods, hnodup, hn, hmethods⟩
    refine hn.trans (List.Subperm.length_le (hnodup.subperm fun method hmethod => ?_))
    exact mem_witnesses.2 (hmethods method hmethod)
  · intro hn
    exact ⟨_, nodup_dedup _, hn, fun method hmethod => mem_witnesses.1 hmethod⟩

theorem witnesses_length_le :
    (witnesses env dataDoc options proofs).length ≤ (verifying env dataDoc options proofs).length :=
  (dedup_sublist _).length_le.trans (length_map _).le

/-- What is expected of the decision: a threshold is met by different witnesses, and neither the order of the
proofs nor a copy of one of them matters. -/
structure CountsWitnesses (env : Surroundings) (dataDoc : Json) (options : VerifyOptions)
    (proofs : List DataIntegrityProof) (policy : VerifyPolicy) : Prop where
  threshold : ∀ n ≥ 1, policy = .requireThreshold n →
    (verifyMulti env proofs dataDoc options policy).policySatisfied = true →
      HasWitnesses env dataDoc options proofs n
  permuted : ∀ twin, twin.Perm proofs →
    (verifyMulti env twin dataDoc options policy).policySatisfied =
      (verifyMulti env proofs dataDoc options policy).policySatisfied
  copied : ∀ proof ∈ proofs,
    (verifyMulti env (proofs ++ [proof]) dataDoc options policy).policySatisfied =
      (verifyMulti env proofs dataDoc options policy).policySatisfied

/-- No threshold that copies reach: the witnesses suffice, or more than one proof is missing, or none verifies. -/
def NoCopiesCounted (env : Surroundings) (dataDoc : Json) (options : VerifyOptions)
    (proofs : List DataIntegrityProof)
    (policy : VerifyPolicy) : Prop :=
  ∀ n ≥ 1, policy = .requireThreshold n →
    n ≤ (witnesses env dataDoc options proofs).length ∨ (verifying env dataDoc options proofs).length + 1 < n ∨
      verifying env dataDoc options proofs = []

/-- **Thresholds**: the decision counts witnesses exactly where copies cannot reach the threshold. -/
theorem countsWitnesses_iff (env : Surroundings) (dataDoc : Json) (options : VerifyOptions)
    (proofs : List DataIntegrityProof) (policy : VerifyPolicy) :
    CountsWitnesses env dataDoc options proofs policy ↔ NoCopiesCounted env dataDoc options proofs policy := by
  constructor
  · rintro ⟨hthreshold, -, hcopied⟩ n hn rfl
    by_cases hreached : n ≤ (verifying env dataDoc options proofs).length
    · obtain ⟨m, rfl⟩ := Nat.exists_eq_add_of_le' hn
      exact .inl (hasWitnesses_iff.1 (hthreshold _ hn rfl (policySatisfied_iff.2 hreached)))
    · by_cases hnone : verifying env dataDoc options proofs = []
      · exact .inr (.inr hnone)
      · -- one copy of a proof that verifies must not complete the threshold
        obtain ⟨proof, hproof⟩ := exists_mem_of_ne_nil _ hnone
        obtain ⟨hmem, hverifies⟩ := mem_filter.1 hproof
        have hcopy := hcopied proof hmem
        rw [Bool.eq_iff_iff, policySatisfied_iff, policySatisfied_iff, satisfied_append hmem] at hcopy
        have hne : n ≠ (verifying env dataDoc options proofs).length + 1 := by
          rintro rfl
          exact hreached (hcopy.1 (.inr ⟨by simpa using hverifies, rfl⟩))
        omega
  · intro h
    refine ⟨?_, ?_, ?_⟩
    · rintro n hn rfl hsatisfied
      obtain ⟨m, rfl⟩ := Nat.exists_eq_add_of_le' hn
      have hreached : m + 1 ≤ (verifying env dataDoc options proofs).length := policySatisfied_iff.1 hsatisfied
      rcases h _ hn rfl with hwitnesses | hmissing | hnone
      · exact hasWitnesses_iff.2 hwitnesses
      · omega
      · rw [hnone, length_nil] at hreached
        omega
    · intro twin htwin
      rw [Bool.eq_iff_iff, policySatisfied_iff, policySatisfied_iff, satisfied_perm htwin]
    · intro proof hmem
      rw [Bool.eq_iff_iff, policySatisfied_iff, policySatisfied_iff, satisfied_append hmem, or_iff_left_iff_imp]
      rintro ⟨hverifies, rfl⟩
      have hproof : proof ∈ verifying env dataDoc options proofs :=
        mem_filter.2 ⟨hmem, by simpa using hverifies⟩
      have hlength : (witnesses env dataDoc options proofs).length ≤ (verifying env dataDoc options proofs).length :=
        witnesses_length_le
      rcases h _ (Nat.le_add_left 1 _) rfl with hwitnesses | hmissing | hnone
      · omega
      · omega
      · rw [hnone] at hproof
        cases hproof

end Counting

/-! ## Two copies of one proof -/

/-- Every method resolves to an Ed25519 key, under which every signature is accepted. -/
def openSurroundings : Surroundings :=
  ⟨openPrimitives, insertionOrders, 0, fun _ => .ok ⟨.ed25519, []⟩⟩

theorem cardProof_verifies : Verifies openSurroundings card ⟨none, []⟩ cardProof := by
  show cardProof.verify openSurroundings card ⟨none, []⟩ = .ok ()
  have hproof : verifyProofInternal openPrimitives insertionOrders 0 cardProof card [] ⟨none, []⟩ = .ok () :=
    card_verifies
  unfold DataIntegrityProof.verify
  rw [show openSurroundings.resolver cardProof.verificationMethod = .ok ⟨.ed25519, []⟩ from rfl, Fallible.ok_bind]
  rw [show verifyProofInternal openSurroundings.prims openSurroundings.orders openSurroundings.now cardProof card []
    ⟨none, []⟩ = .ok () from hproof]
  rfl

/-- One witness, copied, meets a threshold of two. -/
theorem copied_card_meets_threshold :
    (verifyMulti openSurroundings [cardProof, cardProof] card ⟨none, []⟩ (.requireThreshold 2)).policySatisfied =
      true ∧
      (verifyMulti openSurroundings [cardProof] card ⟨none, []⟩ (.requireThreshold 2)).policySatisfied = false ∧
      ¬CountsWitnesses openSurroundings card ⟨none, []⟩ [cardProof, cardProof] (.requireThreshold 2) := by
  have hcard : decide (Verifies openSurroundings card ⟨none, []⟩ cardProof) = true :=
    decide_eq_true cardProof_verifies
  have htwice : (verifyMulti openSurroundings [cardProof, cardProof] card ⟨none, []⟩
      (.requireThreshold 2)).policySatisfied = true := by
    rw [policySatisfied_iff]
    show 1 + 1 ≤ (verifying openSurroundings card ⟨none, []⟩ [cardProof, cardProof]).length
    simp [verifying, hcard]
  refine ⟨htwice, ?_, fun hcounts => ?_⟩
  · rw [← Bool.not_eq_true, policySatisfied_iff]
    show ¬1 + 1 ≤ (verifying openSurroundings card ⟨none, []⟩ [cardProof]).length
    simp [verifying, hcard]
  · have htwo := hasWitnesses_iff.1 (hcounts.threshold 2 (by omega) rfl htwice)
    simp [witnesses, verifying, hcard] at htwo

end AffinidiTdk.DataIntegrity
