/-
DCQL queries and their matching against held credentials (`affinidi-openid4vp/src/dcql.rs`): the query model, its
validation, the walk of a claim path over the claims of a candidate, and the choice of the candidates and claim paths
that answer a query. `trusted_authorities` and `intent_to_retain` are read by none of it. A map from query ids is an
ordered map, a set of ids the list of them.
-/
import AffinidiTdk.Lib.Json

namespace AffinidiTdk.Oid4vp

/-- The errors of a query. -/
inductive Oid4vpError
  | invalidDcqlQuery (message : String)
  | noMatchingCredentials (message : String)

/-- A non-empty text of ASCII letters and digits, `_` and `-`. The source tests the bytes; those of any other character
are none of these. -/
def isValidId (id : String) : Bool := !id.isEmpty && id.toList.all fun c => c.isAlphanum || c = '_' || c = '-'

/-! ## Queries -/

/-- A step into a claim: a member, an element or all elements. -/
inductive ClaimPathSegment
  | name (name : String)
  | index (index : UInt64)
  | wildcard

/-- A claim that is asked for, with the values that are allowed. -/
structure ClaimsQuery where
  id : Option String := none
  path : List ClaimPathSegment
  values : Option (List Json) := none

/-- A credential that is asked for. -/
structure CredentialQuery where
  id : String
  format : String
  meta_ : Option Json.Fields := none
  claims : Option (List ClaimsQuery) := none
  claimSets : Option (List (List String)) := none
  requireCryptographicHolderBinding : Option Bool := none
  multiple : Option Bool := none

/-- Sets of credentials of which one will do. -/
structure CredentialSetQuery where
  options : List (List String)
  required : Option Bool := none

/-- A whole query. -/
structure DcqlQuery where
  credentials : List CredentialQuery
  credentialSets : Option (List CredentialSetQuery) := none

namespace CredentialQuery

def requiresHolderBinding (cq : CredentialQuery) : Bool := cq.requireCryptographicHolderBinding.getD true

def isMultiple (cq : CredentialQuery) : Bool := cq.multiple.getD false

end CredentialQuery

def CredentialSetQuery.isRequired (set : CredentialSetQuery) : Bool := set.required.getD true

/-! ## Validation -/

def ClaimsQuery.validate (credentialId : String) (claim : ClaimsQuery) : Except Oid4vpError Unit :=
  let id := claim.id.getD ""
  if !claim.id.all isValidId then
    .error (.invalidDcqlQuery (s!"credential query `{credentialId}` has a claim id `{id}` that is not a " ++
      "non-empty [A-Za-z0-9_-] string"))
  else if claim.path.isEmpty then
    .error (.invalidDcqlQuery s!"credential query `{credentialId}` has a claim with an empty `path`")
  else .ok ()

namespace CredentialQuery

/-- The loop over `claims`, with the ids of the claims so far. -/
def validateClaims (cq : CredentialQuery) : List ClaimsQuery → List String → Except Oid4vpError (List String)
  | [], claimIds => .ok claimIds
  | claim :: claims, claimIds => do
    claim.validate cq.id
    match claim.id with
    | none => cq.validateClaims claims claimIds
    | some cid =>
      if claimIds.contains cid then
        .error (.invalidDcqlQuery s!"credential query `{cq.id}` has a duplicate claim id `{cid}`")
      else cq.validateClaims claims (cid :: claimIds)

/-- One option of `claim_sets`. -/
def validateOption (cq : CredentialQuery) (claimIds : List String) : List String → Except Oid4vpError Unit
  | [] => .ok ()
  | cid :: option =>
    if claimIds.contains cid then cq.validateOption claimIds option
    else .error (.invalidDcqlQuery (s!"credential query `{cq.id}` claim_sets references unknown claim id `{cid}` " ++
      "(every claim referenced by claim_sets must carry that id)"))

/-- The loop over `claim_sets`, from its `i`-th option on. -/
def validateClaimSets (cq : CredentialQuery) (claimIds : List String) : ℕ → List (List String) →
    Except Oid4vpError Unit
  | _, [] => .ok ()
  | i, option :: options => do
    if option.isEmpty then
      .error (.invalidDcqlQuery s!"credential query `{cq.id}` claim_sets[{i}] is empty")
    else cq.validateOption claimIds option
    cq.validateClaimSets claimIds (i + 1) options

def claimIds (cq : CredentialQuery) : Except Oid4vpError (List String) :=
  match cq.claims with
  | none => .ok []
  | some [] => .error (.invalidDcqlQuery s!"credential query `{cq.id}` has an empty `claims` (omit it instead)")
  | some claims => cq.validateClaims claims []

def validate (cq : CredentialQuery) : Except Oid4vpError Unit := do
  if cq.format.isEmpty then
    .error (.invalidDcqlQuery s!"credential query `{cq.id}` has an empty `format`")
  else
    let claimIds ← cq.claimIds
    match cq.claimSets with
    | none => .ok ()
    | some [] =>
      .error (.invalidDcqlQuery s!"credential query `{cq.id}` has an empty `claim_sets` (omit it instead)")
    | some claimSets => cq.validateClaimSets claimIds 0 claimSets

end CredentialQuery

namespace CredentialSetQuery

/-- One option of a credential set. -/
def validateOption (credentialIds : List String) : List String → Except Oid4vpError Unit
  | [] => .ok ()
  | cid :: option =>
    if credentialIds.contains cid then validateOption credentialIds option
    else .error (.invalidDcqlQuery s!"credential set query references unknown credential id `{cid}`")

/-- The loop over the options, from the `i`-th one on. -/
def validateOptions (credentialIds : List String) : ℕ → List (List String) → Except Oid4vpError Unit
  | _, [] => .ok ()
  | i, option :: options => do
    if option.isEmpty then .error (.invalidDcqlQuery s!"credential set query options[{i}] is empty")
    else validateOption credentialIds option
    validateOptions credentialIds (i + 1) options

def validate (credentialIds : List String) (set : CredentialSetQuery) : Except Oid4vpError Unit :=
  match set.options with
  | [] => .error (.invalidDcqlQuery "a credential set query has an empty `options`")
  | options => validateOptions credentialIds 0 options

end CredentialSetQuery

namespace DcqlQuery

/-- The loop over `credentials`, with the ids so far. -/
def validateCredentials : List CredentialQuery → List String → Except Oid4vpError (List String)
  | [], credentialIds => .ok credentialIds
  | cq :: credentials, credentialIds =>
    if !isValidId cq.id then
      .error (.invalidDcqlQuery s!"credential query id `{cq.id}` is not a non-empty [A-Za-z0-9_-] string")
    else if credentialIds.contains cq.id then
      .error (.invalidDcqlQuery s!"duplicate credential query id `{cq.id}`")
    else do
      cq.validate
      validateCredentials credentials (cq.id :: credentialIds)

def validate (query : DcqlQuery) : Except Oid4vpError Unit := do
  if query.credentials.isEmpty then
    .error (.invalidDcqlQuery "`credentials` must contain at least one credential query")
  else
    let credentialIds ← validateCredentials query.credentials []
    (query.credentialSets.getD []).forM fun set => set.validate credentialIds

end DcqlQuery

/-! ## Candidates and matches -/

/-- A credential the wallet has. -/
structure CandidateCredential where
  id : String
  format : String
  claims : Json
  vct : Option String := none
  doctype : Option String := none
  supportsHolderBinding : Bool

/-- A candidate chosen for a query, with the paths it discloses. -/
structure CredentialMatch where
  credentialQueryId : String
  candidateId : String
  disclosedPaths : List (List ClaimPathSegment)

/-- The answer to a query. -/
structure DcqlMatch where
  matches_ : List CredentialMatch

/-! ## Claim paths -/

/-- The nodes that a segment selects below one node. -/
def ClaimPathSegment.children (value : Json) : ClaimPathSegment → List Json
  | .name key => (value.asObject.bind fun fields => fields.lookup key).toList
  | .index i => (value.asArray.bind fun items => items[i.toNat]?).toList
  | .wildcard => value.asArray.getD []

/-- The loop of `select_path` over the segments. -/
def selectFrom (current : List Json) : List ClaimPathSegment → List Json
  | [] => current
  | segment :: path =>
    let next := current.flatMap fun value => segment.children value
    if next.isEmpty then [] else selectFrom next path

def selectPath (root : Json) (path : List ClaimPathSegment) : List Json := selectFrom [root] path

def ClaimsQuery.isSatisfiedBy (claim : ClaimsQuery) (claims : Json) : Bool :=
  let selected := selectPath claims claim.path
  if selected.isEmpty then false
  else
    match claim.values with
    | none => true
    | some allowed => selected.any fun value => allowed.any fun a => a = value

/-! ## One query and one candidate -/

namespace CredentialQuery

/-- The test of `meta.vct_values`, where that is an array. -/
def vctMatch (fields : Json.Fields) (candidate : CandidateCredential) : Bool :=
  match (fields.lookup "vct_values").bind Json.asArray with
  | none => true
  | some vctValues => candidate.vct.any fun vct => vctValues.any fun v => v.asStr = some vct

/-- The test of `meta.doctype_value`, where that is a text. -/
def doctypeMatch (fields : Json.Fields) (candidate : CandidateCredential) : Bool :=
  match (fields.lookup "doctype_value").bind Json.asStr with
  | none => true
  | some doctypeValue => candidate.doctype = some doctypeValue

def formatAndMetaMatch (cq : CredentialQuery) (candidate : CandidateCredential) : Bool :=
  if cq.format ≠ candidate.format then false
  else
    match cq.meta_ with
    | none => true
    | some fields => vctMatch fields candidate && doctypeMatch fields candidate

/-- The paths of an option of `claim_sets`, where each of its claims is there and resolves. -/
def optionPaths (claims : List ClaimsQuery) (candidate : CandidateCredential) :
    List String → Option (List (List ClaimPathSegment))
  | [] => some []
  | claimId :: option => do
    let claim ← claims.find? fun c => c.id = some claimId
    if !claim.isSatisfiedBy candidate.claims then none
    else
      let paths ← optionPaths claims candidate option
      pure (claim.path :: paths)

/-- The paths of the claims, where all of them resolve. -/
def allPaths (candidate : CandidateCredential) : List ClaimsQuery → Option (List (List ClaimPathSegment))
  | [] => some []
  | claim :: claims =>
    if !claim.isSatisfiedBy candidate.claims then none
    else do
      let paths ← allPaths candidate claims
      pure (claim.path :: paths)

def evaluate (cq : CredentialQuery) (candidate : CandidateCredential) : Option (List (List ClaimPathSegment)) :=
  if !cq.formatAndMetaMatch candidate then none
  else if cq.requiresHolderBinding && !candidate.supportsHolderBinding then none
  else
    match cq.claims with
    | none => some []
    | some claims =>
      match cq.claimSets with
      | some claimSets => claimSets.findSome? (optionPaths claims candidate)
      | none => allPaths candidate claims

/-- The loop over the candidates: it ends at the first match unless the query may match several. -/
def candidateMatches (cq : CredentialQuery) : List CandidateCredential → List CredentialMatch
  | [] => []
  | candidate :: candidates =>
    match cq.evaluate candidate with
    | none => cq.candidateMatches candidates
    | some disclosedPaths =>
      ⟨cq.id, candidate.id, disclosedPaths⟩ :: if !cq.isMultiple then [] else cq.candidateMatches candidates

end CredentialQuery

/-! ## The whole query -/

namespace DcqlQuery

/-- The matches of each credential query, under its id. -/
def perQuery (query : DcqlQuery) (candidates : List CandidateCredential) : OrdMap String (List CredentialMatch) :=
  query.credentials.foldl (fun found cq => found.insert cq.id (cq.candidateMatches candidates)) .empty

def queryMatched (found : OrdMap String (List CredentialMatch)) (id : String) : Bool :=
  (found.get? id).any fun matches_ => !matches_.isEmpty

/-- The ids of an option that are not selected yet are appended. -/
def selectOption (selected option : List String) : List String :=
  option.foldl (fun selected id => if selected.contains id then selected else selected ++ [id]) selected

/-- The loop over the credential sets. -/
def selectSets (found : OrdMap String (List CredentialMatch)) :
    List CredentialSetQuery → List String → Except Oid4vpError (List String)
  | [], selected => .ok selected
  | set :: sets, selected =>
    match set.options.find? fun option => option.all (queryMatched found) with
    | some option => selectSets found sets (selectOption selected option)
    | none =>
      if set.isRequired then
        .error (.noMatchingCredentials "no option of a required credential set could be satisfied")
      else selectSets found sets selected

/-- Without credential sets every query has to match. -/
def selectAll (found : OrdMap String (List CredentialMatch)) :
    List CredentialQuery → List String → Except Oid4vpError (List String)
  | [], selected => .ok selected
  | cq :: credentials, selected =>
    if !queryMatched found cq.id then
      .error (.noMatchingCredentials s!"credential query `{cq.id}` matched no held credential")
    else selectAll found credentials (selected ++ [cq.id])

def matchCredentials (query : DcqlQuery) (candidates : List CandidateCredential) : Except Oid4vpError DcqlMatch := do
  let found := query.perQuery candidates
  let selected ← match query.credentialSets with
    | some sets => selectSets found sets []
    | none => selectAll found query.credentials []
  pure ⟨query.credentials.flatMap fun cq => if selected.contains cq.id then (found.get? cq.id).getD [] else []⟩

end DcqlQuery

end AffinidiTdk.Oid4vp
