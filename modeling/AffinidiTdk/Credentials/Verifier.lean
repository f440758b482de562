/-
SD-JWT verification (`affinidi-sd-jwt`, `verifier.rs`): the issuer's signature, the hash algorithm, the
digests of the disclosures against all digests in the payload, the claims, and the key binding where
it is asked for. The digests of the payload are collected into one set, whatever they stand for and
wherever they stand.
-/
import AffinidiTdk.Credentials.Holder

namespace AffinidiTdk.Credentials

open List

open Json (Fields)

/-- The verifier of a JWS: its payload, or an error. -/
structure JwtVerifier where
  verifyJwt : String → Except SdJwtError Json

/-- What is asked of the key binding. -/
structure VerificationOptions where
  verifyKb : Bool := false
  expectedAudience : Option String := none
  expectedNonce : Option String := none

/-- The resolved claims, and whether a key binding was verified. -/
structure VerificationResult where
  claims : Json
  kbVerified : Option Bool

/-! ## Digests -/

mutual

def collectDigests : Json → List String
  | .obj fields =>
    sdDigests fields ++ ((fields.lookup "...").bind Json.asStr).toList ++ collectMembers fields
  | .arr items => collectItems items
  | _ => []

def collectItems : List Json → List String
  | [] => []
  | item :: items => collectDigests item ++ collectItems items

def collectMembers : List (String × Json) → List String
  | [] => []
  | (key, value) :: fields => (if key = "_sd" then [] else collectDigests value) ++ collectMembers fields

end

/-- `check_duplicate_disclosures`, past the digests that it has seen. -/
def checkDuplicates (seen : List String) : List Disclosure → Except SdJwtError Unit
  | [] => .ok ()
  | d :: disclosures =>
    if d.digest ∈ seen then .error (.verification ("duplicate disclosure digest: " ++ d.digest))
    else checkDuplicates (d.digest :: seen) disclosures

def checkDuplicateDisclosures (disclosures : List Disclosure) : Except SdJwtError Unit :=
    checkDuplicates [] disclosures

def verifyDisclosureDigests (hasher : Hasher) (payload : Json) (disclosures : List Disclosure) :
    Except SdJwtError Unit :=
  match (disclosures.map fun d => hasher.hashB64 d.serialized).find? (· ∉ collectDigests payload) with
  | none => .ok ()
  | some digest => .error (.verification ("disclosure digest not found in payload: " ++ digest))

/-! ## Verification -/

/-- An expected value of the KB-JWT, where there is one, against the member of that name. -/
def checkExpected (name : String) (expected : Option String) (kbPayload : Json) : Except SdJwtError Unit :=
  match expected with
  | none => .ok ()
  | some expected =>
    match kbPayload.strField name with
    | none => .error (.keyBinding (name ++ " missing in KB-JWT"))
    | some actual =>
      if actual ≠ expected then .error (.keyBinding s!"{name} mismatch: expected {expected}, got {actual}")
      else .ok ()

/-- The sixth step of `verify`. -/
def verifyKeyBinding (hasher : Hasher) (sdJwt : SdJwt) (payload : Json) (options : VerificationOptions)
    (holderVerifier : Option JwtVerifier) : Except SdJwtError (Option Bool) :=
  if ¬options.verifyKb then .ok (sdJwt.kbJwt.map fun _ => false)
  else
    match sdJwt.kbJwt with
    | none => .error (.keyBinding "key binding verification requested but no KB-JWT present")
    | some kbJwt =>
      match (payload.get? "cnf").bind (·.get? "jwk") with
      | none => .error (.keyBinding "cnf.jwk required in payload for key binding verification")
      | some _ =>
        match holderVerifier with
        | none => .error (.keyBinding "holder_verifier required when verify_kb is true")
        | some hv => do
          let kbPayload ← hv.verifyJwt kbJwt
          let expectedSdHash := hasher.hashB64 sdJwt.serializeWithoutKb
          match kbPayload.strField "sd_hash" with
          | none => .error (.keyBinding "sd_hash missing in KB-JWT")
          | some actualSdHash =>
            if actualSdHash ≠ expectedSdHash then
              .error (.keyBinding s!"sd_hash mismatch: expected {expectedSdHash}, got {actualSdHash}")
            else do
              checkExpected "aud" options.expectedAudience kbPayload
              checkExpected "nonce" options.expectedNonce kbPayload
              .ok (some true)

/-- `_sd_alg`, where it is a string, names the hasher. -/
def checkSdAlg (hasher : Hasher) (payload : Json) : Except SdJwtError Unit :=
  match payload.strField "_sd_alg" with
  | none => .ok ()
  | some alg =>
    if alg ≠ hasher.algName then
      .error (.verification s!"_sd_alg mismatch: expected {hasher.algName}, got {alg}")
    else .ok ()

/-- The first four steps of `verify`: the payload whose disclosures are accepted. -/
def acceptDisclosures (hasher : Hasher) (sdJwt : SdJwt) (issuerVerifier : JwtVerifier) : Except SdJwtError Json := do
  let payload ← issuerVerifier.verifyJwt sdJwt.jws
  checkSdAlg hasher payload
  checkDuplicateDisclosures sdJwt.disclosures
  verifyDisclosureDigests hasher payload sdJwt.disclosures
  .ok payload

/-- `verify`; none when the resolution runs out of fuel. -/
def verify (hasher : Hasher) (fuel : ℕ) (sdJwt : SdJwt) (issuerVerifier : JwtVerifier)
    (options : VerificationOptions)
    (holderVerifier : Option JwtVerifier) : Option (Except SdJwtError VerificationResult) :=
  match acceptDisclosures hasher sdJwt issuerVerifier with
  | .error e => some (.error e)
  | .ok payload =>
    (resolveClaims sdJwt.disclosures fuel payload).map fun claims => do
      let kbVerified ← verifyKeyBinding hasher sdJwt payload options holderVerifier
      .ok ⟨claims, kbVerified⟩

/-! ## What the checks mean -/

variable {hasher : Hasher} {disclosures : List Disclosure} {payload : Json}

theorem checkDuplicates_eq_ok_iff {seen : List String} :
    checkDuplicates seen disclosures = .ok () ↔
      (∀ d ∈ disclosures, d.digest ∉ seen) ∧ (disclosures.map Disclosure.digest).Nodup := by
  induction disclosures generalizing seen with
  | nil => simp [checkDuplicates]
  | cons d disclosures ih =>
    rw [checkDuplicates]
    split_ifs with hseen
    · exact iff_of_false nofun fun h => h.1 d mem_cons_self hseen
    · rw [ih, map_cons, nodup_cons]
      simp only [mem_cons, not_or, forall_eq_or_imp, mem_map, not_exists, not_and]
      constructor
      · rintro ⟨hnew, hnodup⟩
        exact ⟨⟨hseen, fun other hother => (hnew other hother).2⟩, fun other hother => (hnew other hother).1, hnodup⟩
      · rintro ⟨⟨-, hold⟩, hnew, hnodup⟩
        exact ⟨fun other hother => ⟨hnew other hother, hold other hother⟩, hnodup⟩

theorem checkDuplicateDisclosures_eq_ok_iff :
    checkDuplicateDisclosures disclosures = .ok () ↔ (disclosures.map Disclosure.digest).Nodup := by
  rw [checkDuplicateDisclosures, checkDuplicates_eq_ok_iff]
  exact and_iff_right fun _ _ => not_mem_nil

theorem verifyDisclosureDigests_eq_ok_iff :
    verifyDisclosureDigests hasher payload disclosures = .ok () ↔
      ∀ d ∈ disclosures, hasher.hashB64 d.serialized ∈ collectDigests payload := by
  unfold verifyDisclosureDigests
  split
  · rename_i hfind
    rw [find?_eq_none] at hfind
    refine iff_of_true rfl fun d hd => ?_
    simpa using hfind _ (mem_map_of_mem hd)
  · rename_i digest hfind
    obtain ⟨d, hd, rfl⟩ := mem_map.1 (mem_of_find?_eq_some hfind)
    exact iff_of_false nofun fun hall => absurd (hall d hd) (by simpa using find?_some hfind)

theorem verify_of_error {sdJwt : SdJwt} {issuerVerifier : JwtVerifier} {options : VerificationOptions}
    {holderVerifier : Option JwtVerifier} {e : SdJwtError}
      (h : acceptDisclosures hasher sdJwt issuerVerifier = .error e)
    (fuel : ℕ) : verify hasher fuel sdJwt issuerVerifier options holderVerifier = some (.error e) := by
  rw [verify, h]

end AffinidiTdk.Credentials
