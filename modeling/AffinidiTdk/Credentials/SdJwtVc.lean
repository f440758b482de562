/-
SD-JWT VC issuance (`sd_jwt_vc`): the registered claims are merged into the claims, and the frame must not name a
protected one at its top. Such a claim stays in the payload as it was given, and no disclosure is made inside it,
unless the frame has a frame of its own for it.
-/
import AffinidiTdk.Credentials.Selective

namespace AffinidiTdk.Credentials

open Fallible List Option
open Json (Fields)

/-- The error kinds of the credential layer. -/
inductive SdJwtVcError
  | invalidVct (msg : String)
  | invalidIssuer (msg : String)
  | sdJwt (e : SdJwtError)

namespace SdJwtVc

/-- The arguments of `issue`, without the signer and the hasher. -/
structure Request where
  vct : String
  issuer : String
  subject : Option String
  claims : Json
  disclosureFrame : Json
  holderJwk : Option Json
  iat : ℕ
  exp : Option ℕ

/-- The claims with the registered ones in them. -/
def Request.fullClaims (r : Request) : Fields :=
  let claims := r.claims.asObject.getD []
  let claims := Fields.insert "vct" (.str r.vct) claims
  let claims := Fields.insert "iss" (.str r.issuer) claims
  let claims := Fields.insert "iat" (.int r.iat) claims
  let claims := match r.subject with
    | some sub => Fields.insert "sub" (.str sub) claims
    | none => claims
  match r.exp with
  | some e => Fields.insert "exp" (.int e) claims
  | none => claims

def protectedClaims : List String := ["vct", "iss", "iat", "exp", "nbf", "cnf"]

def validateFrameNoProtectedClaims (frame : Json) : Except SdJwtVcError Unit :=
  match (sdClaims frame.asObject).find? fun name => protectedClaims.contains name with
  | some name => .error (.invalidVct s!"\"{name}\" is a protected claim and must not be selectively disclosed")
  | none => .ok ()

def issue (codec : JsonCodec) (hasher : Hasher) (r : Request) (signer : JwtSigner) (rng : Rng) :
    Except SdJwtVcError SdJwt :=
  if r.vct = "" then .error (.invalidVct "vct must not be empty")
  else if r.issuer = "" then .error (.invalidIssuer "issuer must not be empty")
  else do
    validateFrameNoProtectedClaims r.disclosureFrame
    (Credentials.issue codec hasher (.obj r.fullClaims) r.disclosureFrame signer r.holderJwk rng).mapError .sdJwt

/-! ## The claims -/

variable {codec : JsonCodec} {hasher : Hasher} {rng : Rng} {r : Request} {name : String} {value : Json}

theorem fullClaims_sorted (h : r.claims.Ordered) : r.fullClaims.Sorted := by
  have hclaims : Fields.Sorted (r.claims.asObject.getD []) := by
    cases hc : r.claims with
    | obj fields =>
      rw [hc] at h
      exact h.1
    | null | bool | int | float | str | arr => exact List.Pairwise.nil
  have hregistered := ((hclaims.insert "vct" (.str r.vct)).insert "iss" (.str r.issuer)).insert "iat" (.int r.iat)
  unfold Request.fullClaims
  cases r.subject <;> cases r.exp
  · exact hregistered
  · exact hregistered.insert ..
  · exact hregistered.insert ..
  · exact (hregistered.insert ..).insert ..

theorem lookup_fullClaims (r : Request) : r.fullClaims.lookup "vct" = some (.str r.vct) ∧
    r.fullClaims.lookup "iss" = some (.str r.issuer) ∧ r.fullClaims.lookup "iat" = some (.int r.iat) ∧
    (∀ sub, r.subject = some sub → r.fullClaims.lookup "sub" = some (.str sub)) ∧
    ∀ e, r.exp = some e → r.fullClaims.lookup "exp" = some (.int e) := by
  unfold Request.fullClaims
  cases r.subject <;> cases r.exp <;> simp [Fields.lookup_insert_eq]

/-! ## A claim under the frame -/

/-- Neither an object nor an array. -/
def Scalar (value : Json) : Prop := value.asObject = none ∧ value.asArray = none

/-- The frame has a frame of its own for the claim, and the claim has parts to disclose. -/
def Nested (frame : Json) (fields : Fields) (name : String) : Prop :=
  (frame.get? name).isSome ∧ ∃ value, fields.lookup name = some value ∧ ¬Scalar value

theorem processSub_self {subFrame : Option Json} {sub : Processed Json}
    (h : processSub codec hasher rng subFrame value = .ok sub) (hself : subFrame = none ∨ Scalar value) :
    sub.value = value := by
  cases subFrame with
  | none =>
    cases h
    rfl
  | some subFrame =>
    obtain ⟨hobject, harray⟩ := hself.resolve_left (some_ne_none _)
    cases value with
    | obj => cases hobject
    | arr => cases harray
    | null | bool | int | float | str =>
      cases h
      rfl

theorem disclosableSub_self {subFrame : Option Json} (hself : subFrame = none ∨ Scalar value) :
    disclosableSub subFrame value = [] := by
  cases subFrame with
  | none => rfl
  | some subFrame =>
    obtain ⟨hobject, harray⟩ := hself.resolve_left (some_ne_none _)
    cases value with
    | obj => cases hobject
    | arr => cases harray
    | null | bool | int | float | str => rfl

variable {frame : Option Fields} {fields : Fields}

theorem lookup_processMembers {members : Processed Members}
    (h : processMembers codec hasher rng frame fields = .ok members) (hname : name ∉ sdClaims frame)
    (hvalue : fields.lookup name = some value) :
    ∃ rng' sub, processSub codec hasher rng' (frame.bind (·.lookup name)) value = .ok sub ∧
      members.value.result.lookup name = some sub.value := by
  induction fields generalizing rng members with
  | nil => cases hvalue
  | cons member fields ih =>
    obtain ⟨key, value'⟩ := member
    obtain ⟨sub, later, hsub, hcases⟩ := processMembers_cons h
    rw [lookup_cons] at hvalue
    by_cases hkey : name = key
    · subst hkey
      rw [beq_self_eq_true] at hvalue
      cases hvalue
      rcases hcases with ⟨hmem, -⟩ | ⟨-, -, rfl⟩
      · exact absurd hmem hname
      · exact ⟨rng, sub, hsub, by rw [lookup_cons_self]⟩
    · rw [beq_eq_false_iff_ne.2 hkey] at hvalue
      rcases hcases with ⟨-, d, -, hlater, rfl⟩ | ⟨-, hlater, rfl⟩
      · obtain ⟨rng', sub', hsub', hlookup⟩ := ih hlater hvalue
        exact ⟨rng', sub', hsub', hlookup⟩
      · obtain ⟨rng', sub', hsub', hlookup⟩ := ih hlater hvalue
        refine ⟨rng', sub', hsub', ?_⟩
        rw [lookup_cons, beq_eq_false_iff_ne.2 hkey]
        exact hlookup

theorem head_ne_key (hsorted : fields.Sorted) (hname : name ∉ sdClaims frame)
    (hself : ∀ value, fields.lookup name = some value → frame.bind (·.lookup name) = none ∨ Scalar value) :
    ∀ path ∈ disclosableMembers frame fields, path.head? ≠ some (.key name) := by
  have hmem : ∀ value, (name, value) ∈ fields → frame.bind (·.lookup name) = none ∨ Scalar value :=
    fun value hmem => hself value (hsorted.lookup hmem)
  clear hsorted hself
  induction fields with
  | nil => exact fun path hpath => absurd hpath not_mem_nil
  | cons member fields ih =>
    obtain ⟨key, value⟩ := member
    intro path hpath hhead
    rw [disclosableMembers_cons] at hpath
    rcases mem_append.1 hpath with hpath | hpath
    · have hkey : key = name := by
        rcases mem_append.1 hpath with hpath | hpath
        · obtain ⟨rest, -, rfl⟩ := mem_map.1 hpath
          exact Step.key.inj (some.inj hhead)
        · split_ifs at hpath
          · obtain rfl := mem_singleton.1 hpath
            exact Step.key.inj (some.inj hhead)
          · cases hpath
      subst hkey
      rw [disclosableSub_self (hmem value mem_cons_self), if_neg hname] at hpath
      cases hpath
    · exact ih (fun value hvalue => hmem value (mem_cons_of_mem _ hvalue)) path hpath hhead

/-! ## Issuing -/

variable {signer : JwtSigner} {sdJwt : SdJwt}

theorem issue_eq_ok (h : issue codec hasher r signer rng = .ok sdJwt) :
    (∀ name ∈ protectedClaims, name ∉ sdClaims r.disclosureFrame.asObject) ∧
      Credentials.issue codec hasher (.obj r.fullClaims) r.disclosureFrame signer r.holderJwk rng = .ok sdJwt := by
  unfold issue at h
  split_ifs at h with hvct hissuer
  obtain ⟨hframe, h⟩ := unit_bind_eq_ok_iff.1 h
  refine ⟨fun name hname hmem => ?_, mapError_eq_ok_iff.1 h⟩
  unfold validateFrameNoProtectedClaims at hframe
  split at hframe
  · cases hframe
  · rename_i hnone
    exact find?_eq_none.1 hnone name hmem (contains_iff_mem.2 hname)

theorem get?_payload {issued : Processed Json} {frame : Json} {holderJwk : Option Json}
    (h : issuePayload codec hasher (.obj fields) frame holderJwk rng = .ok issued)
    (hname : name ∉ sdClaims frame.asObject) (hvalue : fields.lookup name = some value)
    (hself : frame.asObject.bind (·.lookup name) = none ∨ Scalar value) (hsd : name ∉ reservedClaimNames)
    (hcnf : name = "cnf" → holderJwk = none) : issued.value.get? name = some value := by
  obtain ⟨-, h⟩ := unit_bind_eq_ok_iff.1 h
  obtain ⟨object, hobject, h⟩ := bind_eq_ok_iff.1 h
  cases h
  obtain ⟨members, decoys, hmembers, -, digests, -, hobject⟩ := processObjectOf_eq_ok hobject
  obtain ⟨rng', sub, hsub, hlookup⟩ := lookup_processMembers hmembers hname hvalue
  rw [processSub_self hsub hself] at hlookup
  simp only [reservedClaimNames, mem_cons, not_or] at hsd
  have hvalue : object.value.lookup name = some value := by
    rw [hobject]
    split_ifs
    · exact hlookup
    · rw [Fields.lookup_insert_of_ne hsd.1, hlookup]
  show List.lookup name _ = _
  cases holderJwk with
  | none =>
    dsimp only
    split_ifs
    · exact hvalue
    · rw [Fields.lookup_insert_of_ne hsd.2.1, hvalue]
  | some jwk =>
    dsimp only
    rw [Fields.lookup_insert_of_ne fun heq => some_ne_none _ (hcnf heq)]
    split_ifs
    · exact hvalue
    · rw [Fields.lookup_insert_of_ne hsd.2.1, hvalue]

/-- What is issued holds the registered claims as they were given, the subject unless the frame names it; and a
protected claim that the frame has no frame for is in the payload as it is, with no disclosure made inside it. -/
theorem issue_keeps_registered (hordered : r.claims.Ordered) (h : issue codec hasher r signer rng = .ok sdJwt) :
    ∃ issued, issuePayload codec hasher (.obj r.fullClaims) r.disclosureFrame r.holderJwk rng = .ok issued ∧
      signer.signJwt (jwtHeader signer) issued.value = .ok sdJwt.jws ∧
      (disclosable r.disclosureFrame (.obj r.fullClaims)).map claimNameAt =
        sdJwt.disclosures.map Disclosure.claimName ∧
      issued.value.get? "vct" = some (.str r.vct) ∧ issued.value.get? "iss" = some (.str r.issuer) ∧
      issued.value.get? "iat" = some (.int r.iat) ∧
      (∀ e, r.exp = some e → issued.value.get? "exp" = some (.int e)) ∧
      (∀ jwk, r.holderJwk = some jwk → issued.value.get? "cnf" = some (.obj [("jwk", jwk)])) ∧
      (∀ sub, r.subject = some sub → "sub" ∉ sdClaims r.disclosureFrame.asObject →
        issued.value.get? "sub" = some (.str sub)) ∧
      ∀ name ∈ protectedClaims, ¬Nested r.disclosureFrame r.fullClaims name →
        (∀ value, r.fullClaims.lookup name = some value → (name = "cnf" → r.holderJwk = none) →
          issued.value.get? name = some value) ∧
        ∀ owner ∈ (disclosable r.disclosureFrame (.obj r.fullClaims)).zip sdJwt.disclosures,
          owner.1.head? ≠ some (.key name) := by
  obtain ⟨hprotected, h⟩ := issue_eq_ok h
  obtain ⟨issued, hissued, h⟩ := bind_eq_ok_iff.1 h
  obtain ⟨jws, hjws, h⟩ := bind_eq_ok_iff.1 h
  cases h
  obtain ⟨hvct, hiss, hiat, hsub, hexp⟩ := lookup_fullClaims r
  -- a claim that the frame neither names nor goes into is in the payload
  have hkept : ∀ name value, name ∉ sdClaims r.disclosureFrame.asObject → r.fullClaims.lookup name = some value →
      r.disclosureFrame.asObject.bind (·.lookup name) = none ∨ Scalar value → name ∉ reservedClaimNames →
      (name = "cnf" → r.holderJwk = none) → issued.value.get? name = some value :=
    fun name value => get?_payload hissued
  have hget : ∀ name, r.disclosureFrame.asObject.bind (·.lookup name) = r.disclosureFrame.get? name := by
    intro name
    cases r.disclosureFrame <;> rfl
  refine ⟨issued, hissued, hjws, ?_, ?_, ?_, ?_, ?_, ?_, ?_, ?_⟩
  · obtain ⟨-, hissued⟩ := unit_bind_eq_ok_iff.1 hissued
    obtain ⟨object, hobject, hissued⟩ := bind_eq_ok_iff.1 hissued
    cases hissued
    obtain ⟨members, decoys, hmembers, hdrawn, -⟩ := processObjectOf_eq_ok hobject
    dsimp only
    rw [hdrawn, Drawn.append, append_nil]
    exact sameNames_members r.fullClaims hmembers
  · exact hkept _ _ (hprotected _ (by decide)) hvct (.inr ⟨rfl, rfl⟩) (by decide) fun h => absurd h (by decide)
  · exact hkept _ _ (hprotected _ (by decide)) hiss (.inr ⟨rfl, rfl⟩) (by decide) fun h => absurd h (by decide)
  · exact hkept _ _ (hprotected _ (by decide)) hiat (.inr ⟨rfl, rfl⟩) (by decide) fun h => absurd h (by decide)
  · exact fun e he => hkept _ _ (hprotected _ (by decide)) (hexp e he) (.inr ⟨rfl, rfl⟩) (by decide) fun h =>
      absurd h (by decide)
  · intro jwk hjwk
    obtain ⟨-, hissued⟩ := unit_bind_eq_ok_iff.1 hissued
    obtain ⟨object, -, hissued⟩ := bind_eq_ok_iff.1 hissued
    cases hissued
    rw [hjwk]
    exact Fields.lookup_insert ..
  · exact fun sub hs hname => hkept _ _ hname (hsub sub hs) (.inr ⟨rfl, rfl⟩)
      (by decide) fun h => absurd h (by decide)
  · intro name hname hnested
    -- the frame has no frame for it, or it is a scalar
    have hself : ∀ value, r.fullClaims.lookup name = some value →
        r.disclosureFrame.asObject.bind (·.lookup name) = none ∨ Scalar value := by
      intro value hvalue
      rw [hget]
      by_contra hboth
      obtain ⟨hsome, hscalar⟩ := not_or.1 hboth
      exact hnested ⟨isSome_iff_ne_none.2 hsome, value, hvalue, hscalar⟩
    constructor
    · intro value hvalue hcnf
      refine hkept name value (hprotected name hname) hvalue (hself value hvalue) (fun hreserved => ?_) hcnf
      have hapart : ∀ name ∈ protectedClaims, name ∉ reservedClaimNames := by decide
      exact hapart name hname hreserved
    · intro owner howner
      exact head_ne_key (fullClaims_sorted hordered) (hprotected name hname) hself _ (of_mem_zip howner).1

def anySigner : JwtSigner := ⟨"HS256", none, fun _ _ => .ok "jws"⟩

/-- A credential of a subject with a key of its own, under a frame that names one claim. -/
def requestWith (name : String) : Request :=
  ⟨"Identity", "https://issuer.example.com", some "user123",
    .obj [("cnf", .obj [("jwk", .obj [("kty", .str "OKP")])]), ("name", .str "Alice"), ("nbf", .int 7)],
    .obj [("_sd", .arr [.str name])], none, 1700000000, none⟩

/-- The name is disclosed, and the claims' own nbf and cnf are in the payload. -/
theorem issue_keeps_registered_nbf :
    ∃ issued, issuePayload SdJwt.aliceCodec SdJwt.plainHasher (.obj (requestWith "name").fullClaims)
      (requestWith "name").disclosureFrame none zeroRng = .ok issued ∧ issued.value.get? "name" = none ∧
      issued.value.get? "sub" = some (.str "user123") ∧ issued.value.get? "nbf" = some (.int 7) ∧
      issued.value.get? "cnf" = some (.obj [("jwk", .obj [("kty", .str "OKP")])]) := by
  have hordered : (requestWith "name").claims.Ordered := by
    simp only [requestWith, Json.Ordered, Json.OrderedFields, and_true]
    refine ⟨by unfold Json.Fields.Sorted; decide, pairwise_singleton _ _, pairwise_singleton _ _⟩
  obtain ⟨issued, hissued, -, -, -, -, -, -, -, hsub, hprotected⟩ := @issue_keeps_registered SdJwt.aliceCodec
    SdJwt.plainHasher zeroRng (requestWith "name") anySigner _ hordered rfl
  have hnested {name : String} (h : (requestWith "name").disclosureFrame.get? name = none) :
      ¬Nested (requestWith "name").disclosureFrame (requestWith "name").fullClaims name :=
    fun hnested => absurd hnested.1 (by simp [h])
  refine ⟨issued, hissued, ?_, hsub _ rfl (by decide), (hprotected "nbf" (by decide) (hnested rfl)).1 _ rfl (by decide),
    (hprotected "cnf" (by decide) (hnested rfl)).1 _ rfl fun _ => rfl⟩
  cases hissued
  rfl

/-- The frame names the subject, which is no protected claim: it is not in the payload. -/
theorem issue_hides_subject :
    (∃ sdJwt, issue SdJwt.aliceCodec SdJwt.plainHasher (requestWith "sub") anySigner zeroRng = .ok sdJwt) ∧
    ∃ issued, issuePayload SdJwt.aliceCodec SdJwt.plainHasher (.obj (requestWith "sub").fullClaims)
      (requestWith "sub").disclosureFrame none zeroRng = .ok issued ∧ issued.value.get? "sub" = none :=
  ⟨⟨_, rfl⟩, _, rfl, by decide⟩

end SdJwtVc

end AffinidiTdk.Credentials
