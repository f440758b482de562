/-
What a DCQL query asks for, said without a search: the nodes that a path selects, when a candidate satisfies a
credential query, which claim paths that discloses, which queries the credential sets select, and when the request as
a whole can be met. Matching answers exactly that.
-/
import AffinidiTdk.Lib.FirstSuch
import AffinidiTdk.Lib.Except
import AffinidiTdk.Oid4vp.Dcql
import Mathlib.Data.List.Pairwise

namespace AffinidiTdk.Oid4vp

open Fallible List ClaimsQuery ClaimPathSegment FirstSuch Json

/-! ## The meaning of a query -/

/-- The last node is one of those that the path selects in the first. -/
inductive Selects : Json → List ClaimPathSegment → Json → Prop
  | here (value : Json) : Selects value [] value
  | name {fields : Json.Fields} {key : String} {child node : Json} {path : List ClaimPathSegment}
      (hchild : fields.lookup key = some child) (h : Selects child path node) :
      Selects (.obj fields) (.name key :: path) node
  | index {items : List Json} {i : UInt64} {child node : Json} {path : List ClaimPathSegment}
      (hchild : items[i.toNat]? = some child) (h : Selects child path node) :
      Selects (.arr items) (.index i :: path) node
  | wildcard {items : List Json} {child node : Json} {path : List ClaimPathSegment}
      (hchild : child ∈ items) (h : Selects child path node) : Selects (.arr items) (.wildcard :: path) node

/-- The path of the claim selects a node, and one with an allowed value where these are limited. -/
def ClaimsQuery.Resolves (claim : ClaimsQuery) (claims : Json) : Prop :=
  ∃ node, Selects claims claim.path node ∧ ∀ allowed, claim.values = some allowed → node ∈ allowed

namespace CredentialQuery

variable (cq : CredentialQuery) (candidate : CandidateCredential)

/-- Every claim of the option resolves. -/
def OptionResolves (claims : List ClaimsQuery) (option : List String) : Prop :=
  ∀ id ∈ option, ∃ claim ∈ claims, claim.id = some id ∧ claim.Resolves candidate.claims

/-- The candidate has the format, type, binding and claims that the query asks for. -/
structure SatisfiedBy : Prop where
  format : cq.format = candidate.format
  vct : ∀ fields vctValues, cq.meta_ = some fields → fields.lookup "vct_values" = some (.arr vctValues) →
    ∃ vct, candidate.vct = some vct ∧ .str vct ∈ vctValues
  doctype : ∀ fields doctype, cq.meta_ = some fields → fields.lookup "doctype_value" = some (.str doctype) →
    candidate.doctype = some doctype
  holderBinding : cq.requiresHolderBinding = true → candidate.supportsHolderBinding = true
  claims : ∀ claims, cq.claims = some claims → cq.claimSets = none → ∀ claim ∈ claims,
    claim.Resolves candidate.claims
  claimSets : ∀ claims claimSets, cq.claims = some claims → cq.claimSets = some claimSets →
    ∃ option ∈ claimSets, OptionResolves candidate claims option

/-- The paths that a satisfied query discloses: none where it names no claims, else those of the first option that
resolves, or those of all claims. -/
structure Discloses (paths : List (List ClaimPathSegment)) : Prop where
  whole : cq.claims = none → paths = []
  claims : ∀ claims, cq.claims = some claims → cq.claimSets = none → paths = claims.map ClaimsQuery.path
  claimSets : ∀ claims claimSets, cq.claims = some claims → cq.claimSets = some claimSets →
    ∃ option, FirstSuch (OptionResolves candidate claims) claimSets option ∧
      List.Forall₂ (fun id path => ∃ claim ∈ claims, claim.id = some id ∧ claim.path = path) option paths

/-- The match of the query with one candidate. -/
structure IsMatch (found : CredentialMatch) : Prop where
  credentialQueryId : found.credentialQueryId = cq.id
  candidateId : found.candidateId = candidate.id
  discloses : cq.Discloses candidate found.disclosedPaths

open Classical in
/-- The candidates that the query takes: all that satisfy it where it may match several, else the first one. -/
def Takes (candidates taken : List CandidateCredential) : Prop :=
  if cq.isMultiple then taken = candidates.filter fun candidate => cq.SatisfiedBy candidate
  else ∃ candidate, FirstSuch cq.SatisfiedBy candidates candidate ∧ taken = [candidate]

/-- The matches of the query: one with each candidate that it takes, in their order. -/
def AreMatches (candidates : List CandidateCredential) (found : List CredentialMatch) : Prop :=
  ∃ taken, cq.Takes candidates taken ∧ List.Forall₂ cq.IsMatch taken found

end CredentialQuery

namespace DcqlQuery

variable (query : DcqlQuery) (candidates : List CandidateCredential)

/-- A credential query of that id is satisfied by some candidate. -/
def Matched (id : String) : Prop :=
  ∃ cq ∈ query.credentials, cq.id = id ∧ ∃ candidate ∈ candidates, cq.SatisfiedBy candidate

/-- All queries of the option are. -/
def OptionMatched (option : List String) : Prop := ∀ id ∈ option, query.Matched candidates id

/-- The request can be met. -/
structure MetBy : Prop where
  all : query.credentialSets = none → ∀ cq ∈ query.credentials, ∃ candidate ∈ candidates, cq.SatisfiedBy candidate
  sets : ∀ sets, query.credentialSets = some sets → ∀ set ∈ sets, set.isRequired = true →
    ∃ option ∈ set.options, query.OptionMatched candidates option

/-- The query is asked for: every query is where there are no credential sets, else those in the first option of a set
that can be satisfied. -/
def Asked (cq : CredentialQuery) : Prop :=
  query.credentialSets = none ∨ ∃ sets, query.credentialSets = some sets ∧ ∃ set ∈ sets, ∃ option,
    FirstSuch (query.OptionMatched candidates) set.options option ∧ cq.id ∈ option

end DcqlQuery

/-! ## Paths -/

variable {path : List ClaimPathSegment} {node : Json}

theorem mem_children {segment : ClaimPathSegment} {value : Json} : Selects value (segment :: path) node ↔ ∃ child ∈
    segment.children value, Selects child path node := by
  constructor
  · intro h
    cases h with
    | name hchild h => exact ⟨_, by simp [children, asObject, hchild], h⟩
    | index hchild h => exact ⟨_, by simp [children, asArray, hchild], h⟩
    | wildcard hchild h => exact ⟨_, by simpa [children, asArray] using hchild, h⟩
  · rintro ⟨child, hchild, h⟩
    cases segment with
    | name key =>
      cases value <;> simp [children, asObject] at hchild
      exact .name hchild h
    | index i =>
      cases value <;> simp [children, asArray] at hchild
      exact .index hchild h
    | wildcard =>
      cases value <;> simp [children, asArray] at hchild
      exact .wildcard hchild h

theorem selectFrom_cons (current : List Json) (segment : ClaimPathSegment) (path : List ClaimPathSegment) :
    selectFrom current (segment :: path) =
      if (current.flatMap fun value => segment.children value).isEmpty then []
      else selectFrom (current.flatMap fun value => segment.children value) path := rfl

theorem mem_selectFrom {current : List Json} : node ∈ selectFrom current path ↔ ∃ value ∈ current,
    Selects value path node := by
  induction path generalizing current with
  | nil =>
    constructor
    · exact fun h => ⟨node, h, .here node⟩
    · rintro ⟨value, hvalue, h⟩
      cases h
      exact hvalue
  | cons segment path ih =>
    have hnext : node ∈ selectFrom (current.flatMap fun value => segment.children value) path ↔
        ∃ value ∈ current, Selects value (segment :: path) node := by
      rw [ih]
      constructor
      · rintro ⟨child, hchild, h⟩
        obtain ⟨value, hvalue, hchild⟩ := mem_flatMap.1 hchild
        exact ⟨value, hvalue, mem_children.2 ⟨child, hchild, h⟩⟩
      · rintro ⟨value, hvalue, h⟩
        obtain ⟨child, hchild, h⟩ := mem_children.1 h
        exact ⟨child, mem_flatMap.2 ⟨value, hvalue, hchild⟩, h⟩
    rw [← hnext, selectFrom_cons]
    split_ifs with hempty
    · -- nothing is selected, and the rest of the path finds nothing in it
      rw [isEmpty_iff.1 hempty, ih]
      simp
    · rfl

theorem mem_selectPath {root : Json} : node ∈ selectPath root path ↔ Selects root path node := by
  rw [selectPath, mem_selectFrom]
  simp

theorem ClaimsQuery.isSatisfiedBy_iff {claim : ClaimsQuery} {claims : Json} :
    claim.isSatisfiedBy claims = true ↔ claim.Resolves claims := by
  unfold isSatisfiedBy Resolves
  dsimp only
  cases hvalues : claim.values with
  | none =>
    constructor
    · intro h
      have hne : selectPath claims claim.path ≠ [] := fun hnil => by rw [hnil] at h; simp at h
      obtain ⟨node, hnode⟩ := exists_mem_of_ne_nil _ hne
      exact ⟨node, mem_selectPath.1 hnode, by simp⟩
    · rintro ⟨node, hnode, -⟩
      have hne : selectPath claims claim.path ≠ [] := ne_nil_of_mem (mem_selectPath.2 hnode)
      simp [hne]
  | some allowed =>
    constructor
    · intro h
      split_ifs at h with hempty
      obtain ⟨node, hnode, hallowed⟩ := any_eq_true.1 h
      refine ⟨node, mem_selectPath.1 hnode, fun a ha => ?_⟩
      cases ha
      simpa using hallowed
    · rintro ⟨node, hnode, hallowed⟩
      have hmem := mem_selectPath.2 hnode
      rw [if_neg (by simpa using ne_nil_of_mem hmem)]
      exact any_eq_true.2 ⟨node, hmem, by simpa using hallowed allowed rfl⟩

/-! ## One query and one candidate -/

namespace CredentialQuery

variable {cq : CredentialQuery} {candidate : CandidateCredential}

variable {claims : List ClaimsQuery}

theorem validateClaims_eq_ok {claimIds all : List String} (h : cq.validateClaims claims claimIds = .ok all) :
    (∀ claim ∈ claims, ∀ cid ∈ claimIds, claim.id ≠ some cid) ∧ claims.Pairwise fun a b => ∀ cid,
    ¬(a.id = some cid ∧ b.id = some cid) := by
  induction claims generalizing claimIds with
  | nil => exact ⟨fun _ hclaim => absurd hclaim not_mem_nil, .nil⟩
  | cons claim claims ih =>
    rw [validateClaims] at h
    obtain ⟨-, h⟩ := unit_bind_eq_ok_iff.1 h
    cases hid : claim.id with
    | none =>
      rw [hid] at h
      obtain ⟨hseen, hpair⟩ := ih h
      refine ⟨fun c hc cid hmem => ?_, pairwise_cons.2 ⟨fun c _ cid hboth => ?_, hpair⟩⟩
      · rcases mem_cons.1 hc with rfl | hc
        · rw [hid]; simp
        · exact hseen c hc cid hmem
      · rw [hid] at hboth
        cases hboth.1
    | some seen =>
      rw [hid] at h
      dsimp only at h
      split_ifs at h with hcontains
      obtain ⟨hseen, hpair⟩ := ih h
      refine ⟨fun c hc cid hmem => ?_, pairwise_cons.2 ⟨fun c hc cid hboth => ?_, hpair⟩⟩
      · rcases mem_cons.1 hc with rfl | hc
        · rw [hid]
          rintro ⟨⟩
          exact hcontains (contains_iff_mem.2 hmem)
        · exact hseen c hc cid (mem_cons_of_mem _ hmem)
      · rw [hid] at hboth
        cases hboth.1
        exact hseen c hc _ mem_cons_self hboth.2

theorem claim_unique (h : cq.validate = .ok ()) (hclaims : cq.claims = some claims) {a b : ClaimsQuery}
    (ha : a ∈ claims) (hb : b ∈ claims) {cid : String} (hida : a.id = some cid) (hidb : b.id = some cid) :
    a = b := by
  rw [validate] at h
  split_ifs at h
  obtain ⟨claimIds, hids, -⟩ := bind_eq_ok_iff.1 h
  rw [CredentialQuery.claimIds, hclaims] at hids
  cases claims with
  | nil => exact absurd ha not_mem_nil
  | cons c claims =>
    have hpair := (validateClaims_eq_ok hids).2
    have hsymm : Std.Symm fun a b : ClaimsQuery => ∀ cid, ¬(a.id = some cid ∧ b.id = some cid) :=
      ⟨fun a b hab cid hba => hab cid hba.symm⟩
    by_contra hne
    exact hpair.forall ha hb hne cid ⟨hida, hidb⟩

variable {fields : Json.Fields}

theorem lookup_asArray {key : String} {items : List Json} : (fields.lookup key).bind asArray = some items ↔
    fields.lookup key = some (.arr items) := by
  cases fields.lookup key with
  | none => simp
  | some value => cases value <;> simp [asArray]

theorem lookup_asStr {key text : String} :
    (fields.lookup key).bind asStr = some text ↔ fields.lookup key = some (.str text) := by
  cases fields.lookup key with
  | none => simp
  | some value => cases value <;> simp [asStr]

theorem asStr_eq_some_iff {value : Json} {text : String} : value.asStr = some text ↔ value = .str text := by
  cases value <;> simp [asStr]

theorem vctMatch_iff : vctMatch fields candidate = true ↔ ∀ vctValues, fields.lookup "vct_values" =
    some (.arr vctValues) → ∃ vct, candidate.vct = some vct ∧ .str vct ∈ vctValues := by
  unfold vctMatch
  cases hvalues : (fields.lookup "vct_values").bind asArray with
  | none =>
    refine iff_of_true rfl fun vctValues h => ?_
    rw [lookup_asArray.2 h] at hvalues
    cases hvalues
  | some items =>
    have hlookup := lookup_asArray.1 hvalues
    have hany : (candidate.vct.any fun vct => items.any fun v => v.asStr = some vct) = true ↔
        ∃ vct, candidate.vct = some vct ∧ .str vct ∈ items := by
      cases candidate.vct with
      | none => simp
      | some vct => simp [asStr_eq_some_iff]
    dsimp only
    rw [hany, hlookup]
    constructor
    · rintro h vctValues ⟨⟩
      exact h
    · exact fun h => h items rfl

theorem doctypeMatch_iff : doctypeMatch fields candidate = true ↔ ∀ doctype, fields.lookup "doctype_value" =
    some (.str doctype) → candidate.doctype = some doctype := by
  unfold doctypeMatch
  cases hvalue : (fields.lookup "doctype_value").bind asStr with
  | none =>
    refine iff_of_true rfl fun doctype h => ?_
    rw [lookup_asStr.2 h] at hvalue
    cases hvalue
  | some text =>
    rw [lookup_asStr.1 hvalue]
    constructor
    · rintro h doctype ⟨⟩
      exact of_decide_eq_true h
    · exact fun h => decide_eq_true (h text rfl)

theorem formatAndMetaMatch_iff : cq.formatAndMetaMatch candidate = true ↔
    cq.format = candidate.format ∧
    (∀ fields vctValues, cq.meta_ = some fields → fields.lookup "vct_values" = some (.arr vctValues) →
      ∃ vct, candidate.vct = some vct ∧ .str vct ∈ vctValues) ∧
    (∀ fields doctype, cq.meta_ = some fields → fields.lookup "doctype_value" = some (.str doctype) →
      candidate.doctype = some doctype) := by
  unfold formatAndMetaMatch
  split_ifs with hformat
  · simp [hformat]
  · rw [not_not] at hformat
    cases cq.meta_ with
    | none => simp [hformat]
    | some fields =>
      rw [Bool.and_eq_true, vctMatch_iff, doctypeMatch_iff]
      constructor
      · rintro ⟨hvct, hdoctype⟩
        refine ⟨hformat, ?_, ?_⟩
        · rintro _ vctValues ⟨⟩ h
          exact hvct vctValues h
        · rintro _ doctype ⟨⟩ h
          exact hdoctype doctype h
      · rintro ⟨-, hvct, hdoctype⟩
        exact ⟨fun vctValues => hvct fields vctValues rfl, fun doctype => hdoctype fields doctype rfl⟩

variable {paths : List (List ClaimPathSegment)}

theorem allPaths_eq_some_iff : allPaths candidate claims = some paths ↔
    (∀ claim ∈ claims, claim.Resolves candidate.claims) ∧ paths = claims.map ClaimsQuery.path := by
  induction claims generalizing paths with
  | nil => simp [allPaths, eq_comm]
  | cons claim claims ih =>
    unfold allPaths
    split_ifs with h
    · have hnot : ¬claim.Resolves candidate.claims := by
        rw [← ClaimsQuery.isSatisfiedBy_iff]
        simpa using h
      simp [hnot]
    · have hresolves : claim.Resolves candidate.claims := by
        rw [← ClaimsQuery.isSatisfiedBy_iff]
        simpa using h
      constructor
      · intro heq
        obtain ⟨rest, hrest, heq⟩ := Option.bind_eq_some_iff.1 heq
        obtain ⟨hall, rfl⟩ := ih.1 hrest
        cases heq
        exact ⟨forall_mem_cons.2 ⟨hresolves, hall⟩, rfl⟩
      · rintro ⟨hall, rfl⟩
        rw [ih.2 ⟨(forall_mem_cons.1 hall).2, rfl⟩]
        rfl

variable {option : List String}

section

variable (h : cq.validate = .ok ())
include h

theorem optionPaths_eq_some_iff (hclaims : cq.claims = some claims) : optionPaths claims candidate option =
    some paths ↔ OptionResolves candidate claims option ∧
    Forall₂ (fun cid path => ∃ claim ∈ claims, claim.id = some cid ∧ claim.path = path) option paths := by
  induction option generalizing paths with
  | nil =>
    constructor
    · rintro ⟨⟩
      exact ⟨fun _ hid => absurd hid not_mem_nil, .nil⟩
    · rintro ⟨-, ⟨⟩⟩
      rfl
  | cons cid option ih =>
    unfold optionPaths
    constructor
    · intro heq
      obtain ⟨claim, hfind, heq⟩ := Option.bind_eq_some_iff.1 heq
      have hmem := mem_of_find?_eq_some hfind
      have hid : claim.id = some cid := by simpa using find?_some hfind
      split_ifs at heq with hsatisfied
      obtain ⟨rest, hrest, heq⟩ := Option.bind_eq_some_iff.1 heq
      obtain ⟨hresolves, hpaths⟩ := ih.1 hrest
      cases heq
      have hclaim : claim.Resolves candidate.claims := by
        rw [← isSatisfiedBy_iff]
        simpa using hsatisfied
      exact ⟨forall_mem_cons.2 ⟨⟨claim, hmem, hid, hclaim⟩, hresolves⟩, .cons ⟨claim, hmem, hid, rfl⟩ hpaths⟩
    · rintro ⟨hresolves, hpaths⟩
      obtain ⟨⟨claim, hmem, hid, hclaim⟩, hresolves⟩ := forall_mem_cons.1 hresolves
      cases hpaths with
      | cons hpath hpaths =>
        obtain ⟨other, hother, hidOther, rfl⟩ := hpath
        obtain rfl := claim_unique h hclaims hother hmem hidOther hid
        -- the first claim of that id is the only one
        have hfind : claims.find? (fun c => c.id = some cid) = some other := by
          have hsome : (claims.find? fun c => c.id = some cid).isSome := by
            rw [find?_isSome]
            exact ⟨other, hother, by simpa using hid⟩
          obtain ⟨first, hfirst⟩ := Option.isSome_iff_exists.1 hsome
          have hidFirst : first.id = some cid := by simpa using find?_some hfirst
          rw [hfirst, claim_unique h hclaims (mem_of_find?_eq_some hfirst) hother hidFirst hid]
        rw [hfind, Option.bind_eq_bind, Option.bind_some,
          if_neg (by simpa using isSatisfiedBy_iff.2 hclaim), ih.2 ⟨hresolves, hpaths⟩]
        rfl

theorem exists_optionPaths (hclaims : cq.claims = some claims)
    (hresolves : OptionResolves candidate claims option) :
    ∃ paths, optionPaths claims candidate option = some paths := by
  have hpaths : ∃ paths : List (List ClaimPathSegment),
      Forall₂ (fun cid path => ∃ claim ∈ claims, claim.id = some cid ∧ claim.path = path) option paths := by
    induction option with
    | nil => exact ⟨[], .nil⟩
    | cons cid option ih =>
      obtain ⟨⟨claim, hmem, hid, -⟩, hrest⟩ := forall_mem_cons.1 hresolves
      obtain ⟨paths, hpaths⟩ := ih hrest
      exact ⟨claim.path :: paths, .cons ⟨claim, hmem, hid, rfl⟩ hpaths⟩
  obtain ⟨paths, hpaths⟩ := hpaths
  exact ⟨paths, (optionPaths_eq_some_iff h hclaims).2 ⟨hresolves, hpaths⟩⟩

theorem evaluate_eq_some_iff : cq.evaluate candidate = some paths ↔ cq.SatisfiedBy candidate ∧
    cq.Discloses candidate paths := by
  unfold evaluate
  split_ifs with hmeta hbinding
  · -- format and meta
    refine iff_of_false (by simp) ?_
    rintro ⟨hsatisfied, -⟩
    rw [formatAndMetaMatch_iff.2 ⟨hsatisfied.format, hsatisfied.vct, hsatisfied.doctype⟩] at hmeta
    cases hmeta
  · -- holder binding
    refine iff_of_false (by simp) ?_
    rintro ⟨hsatisfied, -⟩
    rw [Bool.and_eq_true, Bool.not_eq_true'] at hbinding
    rw [hsatisfied.holderBinding hbinding.1] at hbinding
    cases hbinding.2
  · obtain ⟨hformat, hvct, hdoctype⟩ := formatAndMetaMatch_iff.1 (by simpa using hmeta)
    have hholder : cq.requiresHolderBinding = true → candidate.supportsHolderBinding = true := by
      intro hrequires
      rw [hrequires] at hbinding
      simpa using hbinding
    -- no claims, all of them, or the first option that resolves
    cases hclaims : cq.claims with
    | none =>
      constructor
      · rintro ⟨⟩
        exact ⟨⟨hformat, hvct, hdoctype, hholder, by simp [hclaims], by simp [hclaims]⟩,
          ⟨fun _ => rfl, by simp [hclaims], by simp [hclaims]⟩⟩
      · rintro ⟨-, hdiscloses⟩
        rw [hdiscloses.whole hclaims]
    | some claims =>
      cases hsets : cq.claimSets with
      | none =>
        dsimp only
        rw [allPaths_eq_some_iff]
        constructor
        · rintro ⟨hall, rfl⟩
          refine ⟨⟨hformat, hvct, hdoctype, hholder, ?_, by simp [hsets]⟩, ⟨by simp [hclaims], ?_, by simp [hsets]⟩⟩
          · rintro _ heq -
            rw [hclaims] at heq
            cases heq
            exact hall
          · rintro _ heq -
            rw [hclaims] at heq
            cases heq
            rfl
        · rintro ⟨hsatisfied, hdiscloses⟩
          exact ⟨hsatisfied.claims claims hclaims hsets, hdiscloses.claims claims hclaims hsets⟩
      | some claimSets =>
        dsimp only
        -- an option resolves exactly where its paths are found
        have hfirst : ∀ option, FirstSuch (fun option => (optionPaths claims candidate option).isSome = true)
            claimSets option ↔ FirstSuch (OptionResolves candidate claims) claimSets option := by
          refine fun option => FirstSuch.congr fun option _ => ?_
          rw [Option.isSome_iff_exists]
          constructor
          · rintro ⟨paths, hpaths⟩
            exact ((optionPaths_eq_some_iff h hclaims).1 hpaths).1
          · exact fun hresolves => exists_optionPaths h hclaims hresolves
        rw [FirstSuch.findSome?_eq_some_iff]
        constructor
        · rintro ⟨option, hoption, hpaths⟩
          rw [hfirst] at hoption
          obtain ⟨hresolves, hpaths⟩ := (optionPaths_eq_some_iff h hclaims).1 hpaths
          refine ⟨⟨hformat, hvct, hdoctype, hholder, by simp [hsets], ?_⟩, ⟨by simp [hclaims], by simp [hsets], ?_⟩⟩
          · rintro _ _ heq heqSets
            rw [hclaims] at heq
            rw [hsets] at heqSets
            cases heq
            cases heqSets
            exact ⟨option, hoption.mem, hresolves⟩
          · rintro _ _ heq heqSets
            rw [hclaims] at heq
            rw [hsets] at heqSets
            cases heq
            cases heqSets
            exact ⟨option, hoption, hpaths⟩
        · rintro ⟨-, hdiscloses⟩
          obtain ⟨option, hoption, hpaths⟩ := hdiscloses.claimSets claims claimSets hclaims hsets
          exact ⟨option, (hfirst option).2 hoption, (optionPaths_eq_some_iff h hclaims).2 ⟨hoption.holds, hpaths⟩⟩

theorem exists_evaluate (hsatisfied : cq.SatisfiedBy candidate) : ∃ paths, cq.evaluate candidate = some paths := by
  suffices hpaths : ∃ paths, cq.Discloses candidate paths by
    obtain ⟨paths, hpaths⟩ := hpaths
    exact ⟨paths, (evaluate_eq_some_iff h).2 ⟨hsatisfied, hpaths⟩⟩
  cases hclaims : cq.claims with
  | none => exact ⟨[], fun _ => rfl, by simp [hclaims], by simp [hclaims]⟩
  | some claims =>
    cases hsets : cq.claimSets with
    | none =>
      refine ⟨claims.map path, by simp [hclaims], ?_, by simp [hsets]⟩
      rintro _ heq -
      rw [hclaims] at heq
      cases heq
      rfl
    | some claimSets =>
      obtain ⟨option, hoption⟩ := exists_iff.2 (hsatisfied.claimSets claims claimSets hclaims hsets)
      obtain ⟨paths, hpaths⟩ := exists_optionPaths h hclaims hoption.holds
      refine ⟨paths, by simp [hclaims], by simp [hsets], ?_⟩
      rintro _ _ heq heqSets
      rw [hclaims] at heq
      rw [hsets] at heqSets
      cases heq
      cases heqSets
      exact ⟨option, hoption, ((optionPaths_eq_some_iff h hclaims).1 hpaths).2⟩

/-! ## One query and all candidates -/

theorem candidateMatches_cons_of_not (hnot : ¬cq.SatisfiedBy candidate) (candidates : List CandidateCredential) :
    cq.candidateMatches (candidate :: candidates) = cq.candidateMatches candidates := by
  have hnone : cq.evaluate candidate = none := by
    cases heval : cq.evaluate candidate with
    | none => rfl
    | some paths => exact absurd ((evaluate_eq_some_iff h).1 heval).1 hnot
  rw [candidateMatches, hnone]

theorem candidateMatches_cons (hsatisfied : cq.SatisfiedBy candidate) (candidates : List CandidateCredential) :
    ∃ found, cq.IsMatch candidate found ∧ cq.candidateMatches (candidate :: candidates) = found :: if cq.isMultiple
    then cq.candidateMatches candidates else [] := by
  obtain ⟨paths, hpaths⟩ := exists_evaluate h hsatisfied
  refine ⟨⟨cq.id, candidate.id, paths⟩, ⟨rfl, rfl, ((evaluate_eq_some_iff h).1 hpaths).2⟩, ?_⟩
  rw [candidateMatches, hpaths]
  cases cq.isMultiple <;> rfl

end

variable {candidates : List CandidateCredential}

section

variable (h : cq.validate = .ok ())
include h

theorem candidateMatches_ne_nil_iff : cq.candidateMatches candidates ≠ [] ↔ ∃ candidate ∈ candidates,
    cq.SatisfiedBy candidate := by
  induction candidates with
  | nil => simp [candidateMatches]
  | cons candidate candidates ih =>
    by_cases hsatisfied : cq.SatisfiedBy candidate
    · obtain ⟨found, -, heq⟩ := candidateMatches_cons h hsatisfied candidates
      rw [heq]
      exact iff_of_true (cons_ne_nil _ _) ⟨candidate, mem_cons_self, hsatisfied⟩
    · rw [candidateMatches_cons_of_not h hsatisfied, ih]
      simp [hsatisfied]

open Classical in
theorem candidateMatches_of_multiple (hmultiple : cq.isMultiple = true) (candidates : List CandidateCredential) :
    Forall₂ cq.IsMatch (candidates.filter fun candidate => cq.SatisfiedBy candidate)
    (cq.candidateMatches candidates) := by
  induction candidates with
  | nil => exact .nil
  | cons candidate candidates ih =>
    by_cases hsatisfied : cq.SatisfiedBy candidate
    · obtain ⟨found, hfound, heq⟩ := candidateMatches_cons h hsatisfied candidates
      rw [heq, if_pos hmultiple, filter_cons_of_pos (by simpa using hsatisfied)]
      exact .cons hfound ih
    · rw [candidateMatches_cons_of_not h hsatisfied, filter_cons_of_neg (by simpa using hsatisfied)]
      exact ih

theorem candidateMatches_of_single (hsingle : cq.isMultiple = false)
    (hfirst : FirstSuch cq.SatisfiedBy candidates candidate) : Forall₂ cq.IsMatch [candidate]
    (cq.candidateMatches candidates) := by
  induction candidates with
  | nil => exact absurd hfirst not_nil
  | cons head candidates ih =>
    rcases cons_iff.1 hfirst with ⟨hsatisfied, rfl⟩ | ⟨hnot, hfirst⟩
    · obtain ⟨found, hfound, heq⟩ := candidateMatches_cons h hsatisfied candidates
      rw [heq, if_neg (by simp [hsingle])]
      exact .cons hfound .nil
    · rw [candidateMatches_cons_of_not h hnot]
      exact ih hfirst

theorem areMatches_candidateMatches (hsome : ∃ candidate ∈ candidates, cq.SatisfiedBy candidate) :
    cq.AreMatches candidates (cq.candidateMatches candidates) := by
  unfold AreMatches Takes
  cases hmultiple : cq.isMultiple with
  | true =>
    refine ⟨_, ?_, candidateMatches_of_multiple h hmultiple candidates⟩
    rw [if_pos rfl]
  | false =>
    obtain ⟨candidate, hfirst⟩ := exists_iff.2 hsome
    refine ⟨[candidate], ?_, candidateMatches_of_single h hmultiple hfirst⟩
    rw [if_neg (by simp)]
    exact ⟨candidate, hfirst, rfl⟩

end

theorem Takes.mem {taken : List CandidateCredential} (h : cq.Takes candidates taken) (hmem : candidate ∈ taken) :
    candidate ∈ candidates ∧ cq.SatisfiedBy candidate := by
  unfold Takes at h
  split_ifs at h
  · rw [h] at hmem
    obtain ⟨hcandidate, hsatisfied⟩ := mem_filter.1 hmem
    exact ⟨hcandidate, by simpa using hsatisfied⟩
  · obtain ⟨first, hfirst, rfl⟩ := h
    obtain rfl := mem_singleton.1 hmem
    exact ⟨hfirst.mem, hfirst.holds⟩

theorem AreMatches.mem {group : List CredentialMatch} (h : cq.AreMatches candidates group)
    {found : CredentialMatch} (hfound : found ∈ group) : ∃ candidate ∈ candidates, cq.SatisfiedBy candidate ∧
    cq.IsMatch candidate found := by
  obtain ⟨taken, htakes, hmatches⟩ := h
  have hpair : ∃ candidate ∈ taken, cq.IsMatch candidate found := by
    clear htakes
    induction hmatches with
    | nil => exact absurd hfound not_mem_nil
    | cons hmatch _ ih =>
      rcases mem_cons.1 hfound with rfl | hfound
      · exact ⟨_, mem_cons_self, hmatch⟩
      · obtain ⟨candidate, hcandidate, hmatch⟩ := ih hfound
        exact ⟨candidate, mem_cons_of_mem _ hcandidate, hmatch⟩
  obtain ⟨candidate, hcandidate, hmatch⟩ := hpair
  obtain ⟨hmem, hsatisfied⟩ := htakes.mem hcandidate
  exact ⟨candidate, hmem, hsatisfied, hmatch⟩

end CredentialQuery

/-! ## The whole query -/

namespace DcqlQuery

variable {query : DcqlQuery} {candidates : List CandidateCredential}

variable {credentials : List CredentialQuery} {all : List String}

theorem validateCredentials_eq_ok {credentialIds : List String}
    (h : validateCredentials credentials credentialIds = .ok all) :
    (∀ cq ∈ credentials, cq.validate = .ok () ∧ cq.id ∉ credentialIds) ∧
    (credentials.map CredentialQuery.id).Nodup := by
  induction credentials generalizing credentialIds with
  | nil => exact ⟨fun _ hcq => absurd hcq not_mem_nil, .nil⟩
  | cons cq credentials ih =>
    unfold validateCredentials at h
    split_ifs at h with hid hseen
    obtain ⟨hvalid, h⟩ := unit_bind_eq_ok_iff.1 h
    obtain ⟨hrest, hnodup⟩ := ih h
    refine ⟨forall_mem_cons.2
      ⟨⟨hvalid, by simpa using hseen⟩, fun c hc => ⟨(hrest c hc).1, fun hmem => ?_⟩⟩, ?_⟩
    · exact (hrest c hc).2 (mem_cons_of_mem _ hmem)
    · rw [map_cons, nodup_cons]
      refine ⟨fun hmem => ?_, hnodup⟩
      obtain ⟨c, hc, heq⟩ := mem_map.1 hmem
      exact (hrest c hc).2 (heq ▸ mem_cons_self)

/-- What validation promises: valid credential queries under different ids. -/
theorem validate_eq_ok (h : query.validate = .ok ()) :
    (∀ cq ∈ query.credentials, cq.validate = .ok ()) ∧ (query.credentials.map CredentialQuery.id).Nodup := by
  unfold validate at h
  split_ifs at h
  obtain ⟨credentialIds, hids, -⟩ := bind_eq_ok_iff.1 h
  obtain ⟨hvalid, hnodup⟩ := validateCredentials_eq_ok hids
  exact ⟨fun cq hcq => (hvalid cq hcq).1, hnodup⟩

/-! ### The matches of each query -/

section PerQuery

variable {f : CredentialQuery → List CredentialMatch}

theorem get?_foldl_insert {credentials : List CredentialQuery} (hnodup : (credentials.map CredentialQuery.id).Nodup)
    (found : OrdMap String (List CredentialMatch)) :
    (∀ cq ∈ credentials, (credentials.foldl (fun found cq => found.insert cq.id (f cq)) found).get? cq.id =
      some (f cq)) ∧
    ∀ id, id ∉ credentials.map CredentialQuery.id →
      (credentials.foldl (fun found cq => found.insert cq.id (f cq)) found).get? id = found.get? id := by
  induction credentials generalizing found with
  | nil => exact ⟨fun _ hcq => absurd hcq not_mem_nil, fun _ _ => rfl⟩
  | cons cq credentials ih =>
    rw [map_cons, nodup_cons] at hnodup
    obtain ⟨hmem, hother⟩ := ih hnodup.2 (found.insert cq.id (f cq))
    rw [foldl_cons]
    constructor
    · intro c hc
      rcases mem_cons.1 hc with rfl | hc
      · rw [hother c.id hnodup.1, OrdMap.get?_insert, if_pos rfl]
      · exact hmem c hc
    · intro id hid
      rw [map_cons, mem_cons, not_or] at hid
      rw [hother id hid.2, OrdMap.get?_insert, if_neg hid.1]

end PerQuery

variable {cq : CredentialQuery}

theorem get?_perQuery (h : query.validate = .ok ()) (hcq : cq ∈ query.credentials) :
    (query.perQuery candidates).get? cq.id = some (cq.candidateMatches candidates) :=
  (get?_foldl_insert (validate_eq_ok h).2 .empty).1 cq hcq

theorem queryMatched_iff (h : query.validate = .ok ()) {id : String} :
    queryMatched (query.perQuery candidates) id = true ↔ query.Matched candidates id := by
  unfold queryMatched Matched
  by_cases hid : id ∈ query.credentials.map CredentialQuery.id
  · obtain ⟨cq, hcq, rfl⟩ := mem_map.1 hid
    rw [get?_perQuery h hcq, Option.any_some]
    have hne : cq.candidateMatches candidates ≠ [] ↔ ∃ candidate ∈ candidates, cq.SatisfiedBy candidate :=
      CredentialQuery.candidateMatches_ne_nil_iff ((validate_eq_ok h).1 cq hcq)
    constructor
    · intro hmatched
      exact ⟨cq, hcq, rfl, hne.1 (by simpa using hmatched)⟩
    · rintro ⟨c, hc, hids, hsome⟩
      obtain rfl := inj_on_of_nodup_map (validate_eq_ok h).2 hc hcq hids
      simpa using hne.2 hsome
  · have hnone : (query.perQuery candidates).get? id = none :=
      (get?_foldl_insert (validate_eq_ok h).2 .empty).2 id hid
    rw [hnone]
    refine iff_of_false (by simp) ?_
    rintro ⟨cq, hcq, rfl, -⟩
    exact hid (mem_map_of_mem hcq)

variable {option : List String}

theorem all_queryMatched_iff (h : query.validate = .ok ()) :
    option.all (queryMatched (query.perQuery candidates)) = true ↔ query.OptionMatched candidates option := by
  rw [all_eq_true]
  exact forall₂_congr fun id _ => queryMatched_iff h

/-! ### The queries that are asked for -/

variable {selected : List String}

theorem mem_selectOption {id : String} : id ∈ selectOption selected option ↔ id ∈ selected ∨ id ∈ option := by
  unfold selectOption
  induction option generalizing selected with
  | nil => simp
  | cons cid option ih =>
    rw [foldl_cons, ih]
    split_ifs with hcontains
    · have hmem : cid ∈ selected := by simpa using hcontains
      rw [mem_cons]
      constructor
      · rintro (hid | hid)
        · exact .inl hid
        · exact .inr (.inr hid)
      · rintro (hid | rfl | hid)
        · exact .inl hid
        · exact .inl hmem
        · exact .inr hid
    · rw [mem_append, mem_singleton, mem_cons, or_assoc]

variable {found : OrdMap String (List CredentialMatch)} {sets : List CredentialSetQuery}

theorem selectSets_eq_ok (h : selectSets found sets selected = .ok all) :
    (∀ set ∈ sets, set.isRequired = true → ∃ option ∈ set.options, option.all (queryMatched found) = true) ∧ ∀ id,
    id ∈ all ↔ id ∈ selected ∨ ∃ set ∈ sets, ∃ option, FirstSuch (fun option => option.all (queryMatched found) =
    true) set.options option ∧ id ∈ option := by
  induction sets generalizing selected with
  | nil =>
    cases h
    exact ⟨fun _ hset => absurd hset not_mem_nil, fun id => by simp⟩
  | cons set sets ih =>
    unfold selectSets at h
    cases hfind : set.options.find? fun option => option.all (queryMatched found) with
    | some option =>
      rw [hfind] at h
      have hfirst := find?_eq_some_iff.1 hfind
      obtain ⟨hrequired, hmem⟩ := ih h
      refine ⟨forall_mem_cons.2 ⟨fun _ => ⟨option, hfirst.mem, hfirst.holds⟩, hrequired⟩, fun id => ?_⟩
      rw [hmem, mem_selectOption]
      constructor
      · rintro ((hid | hid) | ⟨other, hother, hid⟩)
        · exact .inl hid
        · exact .inr ⟨set, mem_cons_self, option, hfirst, hid⟩
        · exact .inr ⟨other, mem_cons_of_mem _ hother, hid⟩
      · rintro (hid | ⟨other, hother, o, ho, hid⟩)
        · exact .inl (.inl hid)
        · rcases mem_cons.1 hother with rfl | hother
          · rw [find?_eq_some_iff.2 ho] at hfind
            cases hfind
            exact .inl (.inr hid)
          · exact .inr ⟨other, hother, o, ho, hid⟩
    | none =>
      rw [hfind] at h
      dsimp only at h
      split_ifs at h with hrequired
      obtain ⟨hrest, hmem⟩ := ih h
      refine ⟨forall_mem_cons.2 ⟨fun hreq => absurd hreq hrequired, hrest⟩, fun id => ?_⟩
      rw [hmem]
      constructor
      · rintro (hid | ⟨other, hother, hid⟩)
        · exact .inl hid
        · exact .inr ⟨other, mem_cons_of_mem _ hother, hid⟩
      · rintro (hid | ⟨other, hother, o, ho, hid⟩)
        · exact .inl hid
        · rcases mem_cons.1 hother with rfl | hother
          · rw [find?_eq_some_iff.2 ho] at hfind
            cases hfind
          · exact .inr ⟨other, hother, o, ho, hid⟩

theorem exists_selectSets (h : ∀ set ∈ sets, set.isRequired = true → ∃ option ∈ set.options,
    option.all (queryMatched found) = true) (selected : List String) :
    ∃ all, selectSets found sets selected = .ok all := by
  induction sets generalizing selected with
  | nil => exact ⟨selected, rfl⟩
  | cons set sets ih =>
    obtain ⟨hset, hsets⟩ := forall_mem_cons.1 h
    unfold selectSets
    cases hfind : set.options.find? fun option => option.all (queryMatched found) with
    | some option => exact ih hsets _
    | none =>
      dsimp only
      split_ifs with hrequired
      · obtain ⟨option, hoption, hall⟩ := hset hrequired
        exact absurd hall (find?_eq_none.1 hfind option hoption)
      · exact ih hsets _

theorem selectAll_eq_ok_iff : selectAll found credentials selected = .ok all ↔
    (∀ cq ∈ credentials, queryMatched found cq.id = true) ∧ all = selected ++
    credentials.map CredentialQuery.id := by
  induction credentials generalizing selected with
  | nil =>
    rw [selectAll, Except.ok.injEq, map_nil, append_nil]
    exact ⟨fun h => ⟨fun _ hcq => absurd hcq not_mem_nil, h.symm⟩, fun h => h.2.symm⟩
  | cons cq credentials ih =>
    unfold selectAll
    split_ifs with hmatched
    · simp only [Bool.not_eq_true'] at hmatched
      simp [hmatched]
    · rw [ih]
      have htrue : queryMatched found cq.id = true := by simpa using hmatched
      simp [htrue]

/-! ### The answer -/

/-- The queries that the matching selects, where it gets that far. -/
def select (query : DcqlQuery) (candidates : List CandidateCredential) : Except Oid4vpError (List String) :=
  match query.credentialSets with
  | some sets => selectSets (query.perQuery candidates) sets []
  | none => selectAll (query.perQuery candidates) query.credentials []

theorem matchCredentials_eq (query : DcqlQuery) (candidates : List CandidateCredential) :
    query.matchCredentials candidates = query.select candidates >>= fun selected =>
      .ok ⟨query.credentials.flatMap fun cq =>
        if selected.contains cq.id then ((query.perQuery candidates).get? cq.id).getD [] else []⟩ := by
  unfold matchCredentials select
  cases query.credentialSets <;> rfl

theorem exists_select_iff (h : query.validate = .ok ()) :
    (∃ selected, query.select candidates = .ok selected) ↔ query.MetBy candidates := by
  unfold select
  cases hsets : query.credentialSets with
  | none =>
    constructor
    · rintro ⟨selected, hselected⟩
      refine ⟨fun _ cq hcq => ?_, by simp [hsets]⟩
      obtain ⟨c, hc, hid, hsome⟩ := (queryMatched_iff h).1 ((selectAll_eq_ok_iff.1 hselected).1 cq hcq)
      obtain rfl := inj_on_of_nodup_map (validate_eq_ok h).2 hc hcq hid
      exact hsome
    · intro hmet
      exact ⟨_, selectAll_eq_ok_iff.2
        ⟨fun cq hcq => (queryMatched_iff h).2 ⟨cq, hcq, rfl, hmet.all hsets cq hcq⟩, rfl⟩⟩
  | some sets =>
    constructor
    · rintro ⟨selected, hselected⟩
      refine ⟨by simp [hsets], ?_⟩
      rintro _ heq set hset hrequired
      rw [hsets] at heq
      cases heq
      obtain ⟨option, hoption, hall⟩ := (selectSets_eq_ok hselected).1 set hset hrequired
      exact ⟨option, hoption, (all_queryMatched_iff h).1 hall⟩
    · intro hmet
      refine exists_selectSets (fun set hset hrequired => ?_) []
      obtain ⟨option, hoption, hmatched⟩ := hmet.sets sets hsets set hset hrequired
      exact ⟨option, hoption, (all_queryMatched_iff h).2 hmatched⟩

theorem mem_selected_iff (h : query.validate = .ok ()) (hselected : query.select candidates = .ok selected)
    (hcq : cq ∈ query.credentials) : cq.id ∈ selected ↔ query.Asked candidates cq := by
  unfold select at hselected
  unfold Asked
  cases hsets : query.credentialSets with
  | none =>
    rw [hsets] at hselected
    rw [(selectAll_eq_ok_iff.1 hselected).2]
    exact iff_of_true (mem_append_right _ (mem_map_of_mem hcq)) (.inl rfl)
  | some sets =>
    rw [hsets] at hselected
    rw [(selectSets_eq_ok hselected).2]
    have hfirst : ∀ set : CredentialSetQuery, ∀ option,
        FirstSuch (fun option => option.all (queryMatched (query.perQuery candidates)) = true) set.options option ↔
          FirstSuch (query.OptionMatched candidates) set.options option :=
      fun set option => congr fun option _ => all_queryMatched_iff h
    constructor
    · rintro (hid | ⟨set, hset, option, hoption, hid⟩)
      · exact absurd hid not_mem_nil
      · exact .inr ⟨sets, rfl, set, hset, option, (hfirst set option).1 hoption, hid⟩
    · rintro (heq | ⟨_, heq, set, hset, option, hoption, hid⟩)
      · cases heq
      · cases heq
        exact .inr ⟨set, hset, option, (hfirst set option).2 hoption, hid⟩

theorem Asked.satisfied (h : query.validate = .ok ()) (hmet : query.MetBy candidates)
    (hcq : cq ∈ query.credentials) (hasked : query.Asked candidates cq) : ∃ candidate ∈ candidates,
    cq.SatisfiedBy candidate := by
  rcases hasked with hsets | ⟨sets, hsets, set, hset, option, hoption, hid⟩
  · exact hmet.all hsets cq hcq
  · obtain ⟨c, hc, hids, hsome⟩ := hoption.holds cq.id hid
    obtain rfl := inj_on_of_nodup_map (validate_eq_ok h).2 hc hcq hids
    exact hsome

open Classical in
theorem flatMap_selected {asked : CredentialQuery → Prop} {found : CredentialQuery → List CredentialMatch}
    (h : ∀ cq ∈ credentials, cq.id ∈ selected ↔ asked cq) :
    (credentials.flatMap fun cq => if selected.contains cq.id then found cq else []) =
    ((credentials.filter fun cq => asked cq).map found).flatten := by
  induction credentials with
  | nil => rfl
  | cons cq credentials ih =>
    obtain ⟨hcq, hrest⟩ := forall_mem_cons.1 h
    rw [flatMap_cons, ih hrest]
    by_cases hasked : asked cq
    · rw [if_pos (contains_iff_mem.2 (hcq.2 hasked)), filter_cons_of_pos (by simpa using hasked)]
      rfl
    · rw [if_neg (fun hmem => hasked (hcq.1 (contains_iff_mem.1 hmem))),
        filter_cons_of_neg (by simpa using hasked)]
      rfl

theorem MetBy.mono {more : List CandidateCredential} (hmet : query.MetBy candidates)
    (hsub : ∀ candidate ∈ candidates, candidate ∈ more) : query.MetBy more := by
  constructor
  · intro hsets cq hcq
    obtain ⟨candidate, hcandidate, hsatisfied⟩ := hmet.all hsets cq hcq
    exact ⟨candidate, hsub candidate hcandidate, hsatisfied⟩
  · intro sets hsets set hset hrequired
    obtain ⟨option, hoption, hmatched⟩ := hmet.sets sets hsets set hset hrequired
    refine ⟨option, hoption, fun id hid => ?_⟩
    obtain ⟨cq, hcq, hids, candidate, hcandidate, hsatisfied⟩ := hmatched id hid
    exact ⟨cq, hcq, hids, candidate, hsub candidate hcandidate, hsatisfied⟩

open Classical in
/-- The matches that an answer consists of are those of the queries asked for, in the order of the queries. -/
theorem matches_eq (h : query.validate = .ok ()) {answer : DcqlMatch}
    (hanswer : query.matchCredentials candidates = .ok answer) : query.MetBy candidates ∧ answer.matches_ =
    ((query.credentials.filter fun cq => query.Asked candidates cq).map fun cq => cq.candidateMatches
    candidates).flatten := by
  rw [matchCredentials_eq] at hanswer
  obtain ⟨selected, hselected, heq⟩ := bind_eq_ok_iff.1 hanswer
  cases heq
  refine ⟨(exists_select_iff h).1 ⟨selected, hselected⟩, ?_⟩
  have hasked : ∀ cq ∈ query.credentials, cq.id ∈ selected ↔ query.Asked candidates cq :=
    fun cq hcq => mem_selected_iff h hselected hcq
  rw [← flatMap_selected hasked]
  refine flatMap_congr fun cq hcq => ?_
  rw [get?_perQuery h hcq, Option.getD_some]

open Classical in
/-- Matching a valid query means what the query says: it answers where the request can be met, with the matches of
the queries asked for; more candidates never turn an answer into an error; and nothing else is disclosed. -/
theorem matchCredentials_exact (h : query.validate = .ok ()) (candidates : List CandidateCredential) :
    ((∃ answer, query.matchCredentials candidates = .ok answer) ↔ query.MetBy candidates) ∧
    (∀ answer, query.matchCredentials candidates = .ok answer → ∃ groups, answer.matches_ = groups.flatten ∧
        Forall₂ (fun cq group => cq.AreMatches candidates group)
          (query.credentials.filter fun cq => query.Asked candidates cq) groups) ∧
    (∀ answer more, query.matchCredentials candidates = .ok answer →
      (∀ candidate ∈ candidates, candidate ∈ more) → ∃ answer, query.matchCredentials more = .ok answer) ∧
    ∀ answer, query.matchCredentials candidates = .ok answer → ∀ found ∈ answer.matches_,
      ∃ cq ∈ query.credentials, query.Asked candidates cq ∧
        ∃ candidate ∈ candidates, cq.SatisfiedBy candidate ∧ cq.IsMatch candidate found := by
  have hiff : ∀ candidates, (∃ answer, query.matchCredentials candidates = .ok answer) ↔ query.MetBy candidates := by
    intro candidates
    rw [← exists_select_iff h]
    constructor
    · rintro ⟨answer, hanswer⟩
      rw [matchCredentials_eq] at hanswer
      obtain ⟨selected, hselected, -⟩ := bind_eq_ok_iff.1 hanswer
      exact ⟨selected, hselected⟩
    · rintro ⟨selected, hselected⟩
      rw [matchCredentials_eq, hselected]
      exact ⟨_, rfl⟩
  have hgroup : query.MetBy candidates → ∀ cq ∈ query.credentials.filter (fun cq => query.Asked candidates cq),
      cq ∈ query.credentials ∧ query.Asked candidates cq ∧
        cq.AreMatches candidates (cq.candidateMatches candidates) := by
    intro hmet cq hcq
    obtain ⟨hmem, hasked⟩ := mem_filter.1 hcq
    have hasked := of_decide_eq_true hasked
    exact ⟨hmem, hasked, CredentialQuery.areMatches_candidateMatches ((validate_eq_ok h).1 cq hmem)
      (hasked.satisfied h hmet hmem)⟩
  refine ⟨hiff candidates, fun answer hanswer => ?_, fun answer more hanswer hsub => ?_, fun answer hanswer => ?_⟩
  · obtain ⟨hmet, heq⟩ := matches_eq h hanswer
    exact ⟨_, heq, forall₂_map_right_iff.2 (forall₂_same.2 fun cq hcq => (hgroup hmet cq hcq).2.2)⟩
  · exact (hiff more).2 (((hiff candidates).1 ⟨answer, hanswer⟩).mono hsub)
  · intro found hfound
    obtain ⟨hmet, heq⟩ := matches_eq h hanswer
    rw [heq] at hfound
    obtain ⟨group, hmem, hfound⟩ := mem_flatten.1 hfound
    obtain ⟨cq, hcq, rfl⟩ := mem_map.1 hmem
    obtain ⟨hmem, hasked, hmatches⟩ := hgroup hmet cq hcq
    exact ⟨cq, hmem, hasked, hmatches.mem hfound⟩

/-- An identity, and a membership or an endorsement; the endorsement is shown by one of two claim sets. -/
def joiningQuery : DcqlQuery where
  credentials := [{ id := "pid", format := "dc+sd-jwt", meta_ := some [("vct_values", .arr [.str "PID"])] },
    { id := "membership", format := "dc+sd-jwt", meta_ := some [("vct_values", .arr [.str "Membership"])] },
    { id := "endorsement", format := "dc+sd-jwt", multiple := some true
      claims := some [
        { id := some "by", path := [.name "endorser"] },
        { id := some "for", path := [.name "skills", .wildcard], values := some [.str "rust"] }]
      claimSets := some [["by", "for"], ["for"]] }]
  credentialSets := some [⟨[["pid"]], none⟩, ⟨[["membership"], ["endorsement"]], none⟩]

def heldCredentials : List CandidateCredential := [⟨"p", "dc+sd-jwt", .obj [], some "PID", none, true⟩,
  ⟨"e", "dc+sd-jwt", .obj [("skills", .arr [.str "lean", .str "rust"])], some "Endorsement", none, true⟩]

/-- The second claim set of the second option of the second set is what this holder can show. -/
theorem joiningQuery_matched : joiningQuery.MetBy heldCredentials ∧
    joiningQuery.matchCredentials heldCredentials = .ok ⟨[⟨"pid", "p", []⟩,
      ⟨"endorsement", "e", [[.name "skills", .wildcard]]⟩]⟩ := by
  have hanswer : joiningQuery.matchCredentials heldCredentials = .ok ⟨[⟨"pid", "p", []⟩,
      ⟨"endorsement", "e", [[.name "skills", .wildcard]]⟩]⟩ := by rfl
  exact ⟨(matchCredentials_exact (by rfl) heldCredentials).1.1 ⟨_, hanswer⟩, hanswer⟩

end DcqlQuery

end AffinidiTdk.Oid4vp
