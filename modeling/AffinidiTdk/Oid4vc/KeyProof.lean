/-
OpenID4VCI key proofs (`proof.rs`) over the JWS decoding of `affinidi-oid4vc-core`. A proof is parsed, its signature
verified from the text again, and its claims compared with a policy. The verdict is exact as long as the sums of the
freshness window stay in 64 bits.
-/
import AffinidiTdk.Lib.Base64
import AffinidiTdk.Lib.Except
import AffinidiTdk.Lib.JsonText
import AffinidiTdk.Lib.Panics
import AffinidiTdk.Lib.Text

namespace AffinidiTdk.Oid4vc

open Fallible Option Panics

/-! ## Compact JWS -/

/-- Why a JWT is refused. -/
inductive JwtError
  | invalidFormat (msg : String)
  | base64 (part : String)
  | json
  | verification (msg : String)
  | algNotAllowed (alg : String) (allowed : List String)
  deriving DecidableEq

abbrev JwtVerifier := List UInt8 → List UInt8 → Except JwtError Unit

/-- `splitn(3, '.')`, where it gives three parts. -/
def threeParts (jws : String) : Option (String × String × String) := do
  let (head, rest) ← Text.splitOnce '.' jws
  let (body, signature) ← Text.splitOnce '.' rest
  some (head, body, signature)

theorem threeParts_ofList {head body : List Char} (hhead : '.' ∉ head) (hbody : '.' ∉ body) (rest : List Char) :
    threeParts (String.ofList (head ++ '.' :: (body ++ '.' :: rest))) =
      some (String.ofList head, String.ofList body, String.ofList rest) := by
  simp only [threeParts, Text.splitOnce_ofList hhead, Text.splitOnce_ofList hbody, Option.bind_eq_bind,
    Option.bind_some]

def eqIgnoreAsciiCase (a b : String) : Bool := a.toList.map Char.toLower = b.toList.map Char.toLower

section

variable (fromSlice : List UInt8 → Option Json)

/-- A part of a JWS as bytes. -/
def decodePart (name part : String) : Except JwtError (List UInt8) :=
  (Base64.decode part.toList).elim (throw (.base64 name)) pure

def parseJson (bytes : List UInt8) : Except JwtError Json := (fromSlice bytes).elim (throw .json) pure

def decodeCompactJwsUnverified (jws : String) : Except JwtError (Json × Json) := do
  let (head, body, _) ← (threeParts jws).elim (throw (.invalidFormat "expected 3 dot-separated parts")) pure
  let headerBytes ← decodePart "header" head
  let payloadBytes ← decodePart "payload" body
  let header ← parseJson fromSlice headerBytes
  let payload ← parseJson fromSlice payloadBytes
  pure (header, payload)

def decodeCompactJwsVerifiedWithAlgs (jws : String) (verifier : JwtVerifier) (allowedAlgs : List String) :
    Except JwtError (Json × Json) := do
  let (head, body, signature) ← (threeParts jws).elim (throw (.invalidFormat "expected 3 dot-separated parts")) pure
  let header ← parseJson fromSlice (← decodePart "header" head)
  let alg ← (header.strField "alg").elim (throw (.verification "missing alg in JWS header")) pure
  if eqIgnoreAsciiCase alg "none" then throw (.verification "alg=none is not permitted")
  if alg ∉ allowedAlgs then throw (.algNotAllowed alg allowedAlgs)
  if signature = "" then throw (.verification "empty JWS signature")
  let signature ← decodePart "signature" signature
  verifier (Text.utf8 (head ++ "." ++ body)) signature
  let payload ← parseJson fromSlice (← decodePart "payload" body)
  pure (header, payload)

/-! ## Key proofs -/

/-- One audience or several. -/
inductive Audience
  | one (value : String)
  | many (values : List String)

/-- `serde_json::from_value`. -/
def Audience.fromValue : Json → Option Audience
  | .str value => some (.one value)
  | .arr items => (items.mapM Json.asStr).map .many
  | _ => none

def Audience.contains (value : String) : Audience → Bool
  | .one a => a = value
  | .many a => value ∈ a

/-- The claims of a key proof. -/
structure KeyProofClaims where
  iss : Option String
  aud : Audience
  iat : ℤ
  nonce : Option String

/-- `InvalidProof`; the texts of other crates' errors are left out. -/
inductive Oid4vciError
  | jwt (e : JwtError)
  | wrongTyp (got : Option String)
  | invalidAud
  | invalidProof (msg : String)
  deriving DecidableEq

/-- A decoded key proof. -/
structure KeyProof where
  jwt : String
  alg : String
  kid : Option String
  jwk : Option Json
  claims : KeyProofClaims

/-- What a verifier requires: the times are 64-bit numbers, and the age is not negative. -/
structure ProofPolicy where
  audience : String
  nonce : Option String
  now : ℤ
  maxAgeSecs : ℤ
  now_mem : InI64 now
  age_mem : 0 ≤ maxAgeSecs ∧ InI64 maxAgeSecs

def keyProofTyp : String := "openid4vci-proof+jwt"

def iatFutureLeewaySecs : ℤ := 60

namespace KeyProof

def parse (jwt : String) : Except Oid4vciError KeyProof := do
  let (header, payload) ← (decodeCompactJwsUnverified fromSlice jwt).mapError .jwt
  if header.strField "typ" ≠ some keyProofTyp then throw (.wrongTyp (header.strField "typ"))
  let alg ← ((header.strField "alg").filter fun a => !eqIgnoreAsciiCase a "none").elim
    (throw (.invalidProof "proof header missing `alg` (or `alg=none`)")) pure
  let kid := header.strField "kid"
  let jwk := (header.get? "jwk").filter fun v => v.asObject.isSome
  if kid = none ∧ jwk.isNone then
    throw (.invalidProof "proof header must identify the holder key via `kid` or `jwk`")
  let audValue ← (payload.get? "aud").elim (throw (.invalidProof "proof missing `aud`")) pure
  let aud ← (Audience.fromValue audValue).elim (throw .invalidAud) pure
  let iat ← ((payload.get? "iat").bind Json.asI64).elim (throw (.invalidProof "proof missing numeric `iat`")) pure
  pure ⟨jwt, alg, kid, jwk, payload.strField "iss", aud, iat, payload.strField "nonce"⟩

variable (verifier : JwtVerifier) (allowedAlgs : List String) (policy : ProofPolicy)

def verifySignature (proof : KeyProof) : Except Oid4vciError Unit := do
  let _ ← (decodeCompactJwsVerifiedWithAlgs fromSlice proof.jwt verifier allowedAlgs).mapError .jwt
  pure ()

/-- The audience and the nonce, the first half of `verify_claims`. -/
def verifyBinding (proof : KeyProof) : Except Oid4vciError Unit := do
  if !proof.claims.aud.contains policy.audience then
    throw (.invalidProof s!"proof `aud` does not name this issuer ({policy.audience})")
  if policy.nonce.isSome ∧ proof.claims.nonce ≠ policy.nonce then
    throw (.invalidProof "proof `nonce` does not match the issued c_nonce")

/-- The freshness, the second half. -/
def verifyFreshness (checks : Bool) (proof : KeyProof) : Routine Oid4vciError Unit := do
  if proof.claims.iat > (← i64 checks (policy.now + iatFutureLeewaySecs)) then
    throw (.invalidProof "proof `iat` is in the future")
  else if (← i64 checks (policy.now - proof.claims.iat)) > policy.maxAgeSecs then
    throw (.invalidProof s!"proof is stale (older than {policy.maxAgeSecs}s)")
  else pure ()

def verifyClaims (checks : Bool) (proof : KeyProof) : Routine Oid4vciError Unit := do
  lift (proof.verifyBinding policy)
  proof.verifyFreshness policy checks

def verify (checks : Bool) (proof : KeyProof) : Routine Oid4vciError KeyProofClaims := do
  lift (proof.verifySignature fromSlice verifier allowedAlgs)
  proof.verifyClaims policy checks
  pure proof.claims

/-- `parse` followed by `verify`. -/
def parseVerify (checks : Bool) (jwt : String) : Routine Oid4vciError KeyProofClaims := do
  let proof ← lift (parse fromSlice jwt)
  proof.verify fromSlice verifier allowedAlgs policy checks

end KeyProof

/-! ## What is to be accepted -/

def claimsOf (payload : Json) : Option KeyProofClaims := do
  let aud ← (payload.get? "aud").bind Audience.fromValue
  let iat ← (payload.get? "iat").bind Json.asI64
  some ⟨payload.strField "iss", aud, iat, payload.strField "nonce"⟩

variable (verifier : JwtVerifier) (allowedAlgs : List String) (policy : ProofPolicy)

/-- The string is a key proof with these claims, signed for the verifier and bound to the audience and the nonce. -/
def Bound (jwt : String) (claims : KeyProofClaims) : Prop :=
  ∃ head body sig header payload alg signature, threeParts jwt = some (head, body, sig) ∧
    (Base64.decode head.toList).bind fromSlice = some header ∧
    (Base64.decode body.toList).bind fromSlice = some payload ∧
    header.strField "typ" = some keyProofTyp ∧
    (header.strField "alg" = some alg ∧ alg ∈ allowedAlgs ∧ eqIgnoreAsciiCase alg "none" = false) ∧
    ((header.strField "kid").isSome ∨ ∃ jwk, header.get? "jwk" = some jwk ∧ jwk.asObject.isSome) ∧
    (sig ≠ "" ∧ Base64.decode sig.toList = some signature ∧
      verifier (Text.utf8 (head ++ "." ++ body)) signature = .ok ()) ∧
    claimsOf payload = some claims ∧ claims.aud.contains policy.audience ∧
    ∀ nonce, policy.nonce = some nonce → claims.nonce = some nonce

/-- The proof is from the window of the policy. -/
def Fresh (claims : KeyProofClaims) : Prop :=
  policy.now - policy.maxAgeSecs ≤ claims.iat ∧ claims.iat ≤ policy.now + 60

end

section

variable {fromSlice : List UInt8 → Option Json} {verifier : JwtVerifier} {allowedAlgs : List String}
  {policy : ProofPolicy} {jwt : String} {claims : KeyProofClaims}

theorem key_iff (header : Json) : ¬(header.strField "kid" = none ∧
    ((header.get? "jwk").filter fun v => v.asObject.isSome).isNone = true) ↔
    (header.strField "kid").isSome ∨ ∃ jwk, header.get? "jwk" = some jwk ∧ jwk.asObject.isSome := by
  rw [not_and_or, ← ne_eq, ← isSome_iff_ne_none, Bool.not_eq_true, isNone_eq_false_iff,
    isSome_iff_exists (x := Option.filter _ _)]
  simp only [filter_eq_some_iff]

open KeyProof

theorem parse_eq_ok_iff {proof : KeyProof} : parse fromSlice jwt = .ok proof ↔ ∃ head body sig header
    payload alg claims, threeParts jwt = some (head, body, sig) ∧ (Base64.decode head.toList).bind fromSlice =
    some header ∧ (Base64.decode body.toList).bind fromSlice = some payload ∧ header.strField "typ" =
    some keyProofTyp ∧ (header.strField "alg" = some alg ∧ eqIgnoreAsciiCase alg "none" = false) ∧
    ((header.strField "kid").isSome ∨ ∃ jwk, header.get? "jwk" = some jwk ∧ jwk.asObject.isSome) ∧
    claimsOf payload = some claims ∧ proof =
    ⟨jwt, alg, header.strField "kid", (header.get? "jwk").filter fun v => v.asObject.isSome, claims⟩ := by
  simp only [parse, decodeCompactJwsUnverified, decodePart, parseJson, bind_eq_ok_iff, mapError_eq_ok_iff,
    elim_throw_eq_ok_iff, guard_eq_ok_iff, claimsOf, bind_eq_bind, bind_eq_some_iff,
    filter_eq_some_iff, key_iff, pure_eq_ok_iff, Bool.not_eq_true', some_inj]
  constructor
  · rintro ⟨_, ⟨⟨head, body, sig⟩, hparts, _, hhead, _, hbody, header, hheader, payload, hpayload, rfl⟩, htyp, alg,
      halg, hkey, _, haud, aud, haud', iat, hiat, rfl⟩
    exact ⟨head, body, sig, header, payload, alg, _, hparts, ⟨_, hhead, hheader⟩, ⟨_, hbody, hpayload⟩, not_not.1 htyp,
      halg, hkey, ⟨aud, ⟨_, haud, haud'⟩, iat, hiat, rfl⟩, rfl⟩
  · rintro ⟨head, body, sig, header, payload, alg, _, hparts, ⟨_, hhead, hheader⟩, ⟨_, hbody, hpayload⟩, htyp, halg,
      hkey, ⟨aud, ⟨_, haud, haud'⟩, iat, hiat, rfl⟩, rfl⟩
    exact ⟨_, ⟨_, hparts, _, hhead, _, hbody, header, hheader, payload, hpayload, rfl⟩, not_not.2 htyp, alg, halg, hkey,
      _, haud, aud, haud', iat, hiat, rfl⟩

theorem verifySignature_eq_ok_iff {proof : KeyProof} : proof.verifySignature fromSlice verifier allowedAlgs =
    .ok () ↔ ∃ head body sig header payload alg signature, threeParts proof.jwt = some (head, body, sig) ∧
    (Base64.decode head.toList).bind fromSlice = some header ∧ (Base64.decode body.toList).bind fromSlice =
    some payload ∧ (header.strField "alg" = some alg ∧ alg ∈ allowedAlgs ∧ eqIgnoreAsciiCase alg "none" = false) ∧
    sig ≠ "" ∧ Base64.decode sig.toList = some signature ∧ verifier (Text.utf8 (head ++ "." ++ body)) signature =
    .ok () := by
  simp only [verifySignature, decodeCompactJwsVerifiedWithAlgs, decodePart, parseJson, bind_eq_ok_iff,
    mapError_eq_ok_iff, elim_throw_eq_ok_iff, guard_eq_ok_iff, bind_eq_some_iff, pure_eq_ok_iff, not_not,
    Bool.not_eq_true]
  constructor
  · rintro ⟨_, ⟨⟨head, body, sig⟩, hparts, _, hhead, header, hheader, alg, halg, hnone, hallowed, hsig, signature,
      hsignature, ⟨⟩, hverified, _, hbody, payload, hpayload, -⟩, -⟩
    exact ⟨head, body, sig, header, payload, alg, signature, hparts, ⟨_, hhead, hheader⟩, ⟨_, hbody, hpayload⟩,
      ⟨halg, hallowed, hnone⟩, hsig, hsignature, hverified⟩
  · rintro ⟨head, body, sig, header, payload, alg, signature, hparts, ⟨_, hhead, hheader⟩, ⟨_, hbody, hpayload⟩,
      ⟨halg, hallowed, hnone⟩, hsig, hsignature, hverified⟩
    exact ⟨_, ⟨_, hparts, _, hhead, header, hheader, alg, halg, hnone, hallowed, hsig, signature, hsignature, (),
      hverified, _, hbody, payload, hpayload, rfl⟩, trivial⟩

theorem verifyBinding_eq_ok_iff {proof : KeyProof} : proof.verifyBinding policy = .ok () ↔
    proof.claims.aud.contains policy.audience ∧
      ∀ nonce, policy.nonce = some nonce → proof.claims.nonce = some nonce := by
  simp only [verifyBinding, guard_eq_ok_iff, ite_throw_eq_ok_iff, pure_eq_ok_iff]
  cases policy.nonce <;> simp

/-- What comes before the freshness accepts the bound proofs. -/
theorem bound_iff : Bound fromSlice verifier allowedAlgs policy jwt claims ↔
    ∃ proof, parse fromSlice jwt = .ok proof ∧
      proof.verifySignature fromSlice verifier allowedAlgs = .ok () ∧ proof.verifyBinding policy = .ok () ∧
      proof.claims = claims := by
  constructor
  · rintro ⟨head, body, sig, header, payload, alg, signature, hparts, hheader, hpayload, htyp, ⟨halg, hallowed, hnone⟩,
      hkey, hsignature, hclaims, hbinding⟩
    refine ⟨_, parse_eq_ok_iff.2 ⟨head, body, sig, header, payload, alg, claims, hparts, hheader, hpayload, htyp,
      ⟨halg, hnone⟩, hkey, hclaims, rfl⟩, verifySignature_eq_ok_iff.2 ⟨head, body, sig, header, payload, alg, signature,
      hparts, hheader, hpayload, ⟨halg, hallowed, hnone⟩, hsignature⟩, verifyBinding_eq_ok_iff.2 hbinding, rfl⟩
  · rintro ⟨proof, hparse, hsignature, hbinding, rfl⟩
    obtain ⟨head, body, sig, header, payload, alg, claims, hparts, hheader, hpayload, htyp, -, hkey, hclaims, rfl⟩ :=
      parse_eq_ok_iff.1 hparse
    obtain ⟨head', body', sig', header', payload', alg', signature, hparts', hheader', hpayload', halg, hsig⟩ :=
      verifySignature_eq_ok_iff.1 hsignature
    -- the token is decoded twice, to the same parts
    cases hparts.symm.trans hparts'
    cases hheader.symm.trans hheader'
    exact ⟨head, body, sig, header, payload, alg', signature, hparts, hheader, hpayload, htyp, halg, hkey, hsig,
      hclaims, verifyBinding_eq_ok_iff.1 hbinding⟩

/-! ## Exactness -/

/-- The sums of the freshness window that are made are 64-bit numbers. -/
def WindowFits (policy : ProofPolicy) (claims : KeyProofClaims) : Prop :=
  policy.now + 60 < 2 ^ 63 ∧ (claims.iat ≤ policy.now + 60 → policy.now - claims.iat < 2 ^ 63)

/-- In the window the check ends, and passes exactly the fresh proofs. -/
theorem verifyFreshness_runs (checks : Bool) {proof : KeyProof} (h : WindowFits policy proof.claims) :
    ∃ y, Runs (proof.verifyFreshness policy checks) y ∧ (y = .ok () ↔ Fresh policy proof.claims) := by
  obtain ⟨hlater, hage⟩ := h
  have hnow := policy.now_mem
  unfold InI64 at hnow
  unfold verifyFreshness Fresh iatFutureLeewaySecs
  rw [i64_eq ⟨by omega, hlater⟩, pure_bind]
  split_ifs with hfuture
  · exact ⟨_, .throw _, by simp; omega⟩
  · rw [i64_eq ⟨by omega, hage (by omega)⟩, pure_bind]
    split_ifs with hstale
    · exact ⟨_, .throw _, by simp; omega⟩
    · exact ⟨_, .pure _, by simp [pure, Except.pure]; omega⟩

theorem verifyFreshness_panics {proof : KeyProof} (h : ¬WindowFits policy proof.claims) {y : Except Oid4vciError Unit} :
    ¬Runs (proof.verifyFreshness policy true) y := by
  have hnow := policy.now_mem
  unfold InI64 at hnow
  unfold verifyFreshness iatFutureLeewaySecs
  by_cases hlater : policy.now + 60 < 2 ^ 63
  · have hboth := mt (And.intro hlater) h
    rw [i64_eq ⟨by omega, hlater⟩, pure_bind, if_neg (by omega), i64_abort (by unfold InI64; omega)]
    exact Runs.not_abort
  · rw [i64_abort (by unfold InI64; omega)]
    exact Runs.not_abort

theorem parseVerify_eq {proof : KeyProof} {checks : Bool} (hparse : parse fromSlice jwt = .ok proof)
    (hsignature : proof.verifySignature fromSlice verifier allowedAlgs = .ok ())
    (hbinding : proof.verifyBinding policy = .ok ()) :
    parseVerify fromSlice verifier allowedAlgs policy checks jwt =
      (proof.verifyFreshness policy checks >>= fun _ => pure proof.claims) := by
  unfold parseVerify verify verifyClaims
  rw [hparse, lift_ok, pure_bind, hsignature, lift_ok, pure_bind, hbinding, lift_ok, pure_bind]

theorem parseVerify_unbound (checks : Bool) (h : ∀ claims, ¬Bound fromSlice verifier allowedAlgs policy jwt claims) :
    ∃ e, Runs (parseVerify fromSlice verifier allowedAlgs policy checks jwt) (.error e) := by
  unfold parseVerify verify verifyClaims
  cases hparse : parse fromSlice jwt with
  | error e => exact ⟨e, .error_bind (.lift _)⟩
  | ok proof =>
    rw [lift_ok, pure_bind]
    cases hsignature : proof.verifySignature fromSlice verifier allowedAlgs with
    | error e => exact ⟨e, .error_bind (.lift _)⟩
    | ok =>
      rw [lift_ok, pure_bind]
      cases hbinding : proof.verifyBinding policy with
      | error e => exact ⟨e, .error_bind (.error_bind (.lift _))⟩
      | ok => exact absurd (bound_iff.2 ⟨proof, hparse, hsignature, hbinding, rfl⟩) (h _)

/-- Parsing and verifying come to an end in every build, accept exactly the bound and fresh proofs and return their
claims: exactly where the window of what passes the other checks fits. -/
theorem parseVerify_exact_iff :
    (∀ checks, ∃ y, Runs (parseVerify fromSlice verifier allowedAlgs policy checks jwt) y ∧
      ∀ claims, y = .ok claims ↔ Bound fromSlice verifier allowedAlgs policy jwt claims ∧ Fresh policy claims) ↔
    ∀ claims, Bound fromSlice verifier allowedAlgs policy jwt claims → WindowFits policy claims := by
  constructor
  · intro h claims hbound
    obtain ⟨proof, hparse, hsignature, hbinding, rfl⟩ := bound_iff.1 hbound
    obtain ⟨y, hruns, -⟩ := h true
    rw [parseVerify_eq hparse hsignature hbinding] at hruns
    obtain ⟨outcome, houtcome⟩ := hruns.of_bind
    by_contra hfits
    exact verifyFreshness_panics hfits houtcome
  · intro h checks
    by_cases hbound : ∃ claims, Bound fromSlice verifier allowedAlgs policy jwt claims
    · obtain ⟨claims, hbound⟩ := hbound
      obtain ⟨proof, hparse, hsignature, hbinding, hproof⟩ := bound_iff.1 hbound
      have honly : ∀ other, Bound fromSlice verifier allowedAlgs policy jwt other ↔ proof.claims = other := by
        intro other
        rw [bound_iff]
        constructor
        · rintro ⟨proof', hparse', -, -, rfl⟩
          cases hparse.symm.trans hparse'
          rfl
        · exact fun hother => ⟨proof, hparse, hsignature, hbinding, hother⟩
      subst hproof
      obtain ⟨y, hruns, hy⟩ := verifyFreshness_runs checks (h _ hbound)
      refine ⟨y >>= fun _ => pure proof.claims, ?_, fun claims => ?_⟩
      · rw [parseVerify_eq hparse hsignature hbinding]
        exact hruns.bind fun _ _ => .pure _
      · rw [bind_eq_ok_iff, honly]
        constructor
        · rintro ⟨⟨⟩, hok, hclaims⟩
          cases hclaims
          exact ⟨rfl, hy.1 hok⟩
        · rintro ⟨rfl, hfresh⟩
          exact ⟨(), hy.2 hfresh, rfl⟩
    · obtain ⟨e, he⟩ := parseVerify_unbound checks (not_exists.1 hbound)
      exact ⟨.error e, he, fun claims => ⟨(by cases ·), fun h => absurd ⟨claims, h.1⟩ hbound⟩⟩

end

/-! ## The oldest time there is -/

namespace MinIat

def header : Json := .obj [("alg", .str "ES256"), ("kid", .str "did:key:z6Mk#0"), ("typ", .str keyProofTyp)]

def payload : Json := .obj [("aud", .str "https://issuer"), ("iat", .int (-2 ^ 63))]

def fromSlice (bytes : List UInt8) : Option Json :=
  if bytes = Text.utf8 header.toText then some header
  else if bytes = Text.utf8 payload.toText then some payload
  else none

def encoded (value : Json) : List Char := Base64.encode (Text.utf8 value.toText)

def token : String := String.ofList (encoded header ++ '.' :: (encoded payload ++ '.' :: ['A', 'A']))

def policy : ProofPolicy := ⟨"https://issuer", none, 1700000000, 300, by decide, by decide⟩

def claims : KeyProofClaims := ⟨none, .one "https://issuer", -2 ^ 63, none⟩

theorem dot_not_mem (value : Json) : '.' ∉ encoded value := fun h =>
  absurd (Base64.index?_of_mem_encode _ _ h) (by decide)

theorem decode_encoded (value : Json) :
    (Base64.decode (String.ofList (encoded value)).toList).bind fromSlice = fromSlice (Text.utf8 value.toText) := by
  rw [String.toList_ofList, encoded, Base64.decode_encode, Option.bind_some]

theorem bound : Bound fromSlice (fun _ _ => .ok ()) ["ES256"] policy token claims := by
  have hne : Text.utf8 payload.toText ≠ Text.utf8 header.toText := fun h =>
    absurd (String.ofList_inj.1 (Text.utf8_injective h)) (by decide)
  refine ⟨_, _, _, header, payload, "ES256", [0], threeParts_ofList (dot_not_mem _) (dot_not_mem _) _, ?_, ?_, rfl,
    ⟨rfl, by decide, by decide⟩, .inl rfl, ⟨by decide, by decide, rfl⟩, rfl, by decide, fun _ h => by cases h⟩
  · rw [decode_encoded, fromSlice, if_pos rfl]
  · rw [decode_encoded, fromSlice, if_neg hne, if_pos rfl]

end MinIat

open MinIat in
/-- A checking build panics on the token, one that wraps takes it for fresh. -/
theorem min_iat_not_exact :
    (¬∃ y, Runs (KeyProof.parseVerify fromSlice (fun _ _ => .ok ()) ["ES256"] policy true token) y) ∧
    Runs (KeyProof.parseVerify fromSlice (fun _ _ => .ok ()) ["ES256"] policy false token) (.ok MinIat.claims) ∧
    ¬Fresh policy MinIat.claims := by
  obtain ⟨proof, hparse, hsignature, hbinding, hclaims⟩ := bound_iff.1 bound
  rw [parseVerify_eq hparse hsignature hbinding, parseVerify_eq hparse hsignature hbinding, hclaims]
  refine ⟨?_, ?_, by unfold Fresh; decide⟩
  · rintro ⟨y, hy⟩
    obtain ⟨outcome, h⟩ := hy.of_bind
    exact verifyFreshness_panics (by rw [hclaims]; unfold WindowFits; decide) h
  · refine Runs.ok_bind (a := ()) ?_ (.pure _)
    unfold KeyProof.verifyFreshness Runs
    rw [hclaims]
    decide

end AffinidiTdk.Oid4vc
