/-
The registry of trust anchors (`registry.rs`): an index from fingerprints to the services that were loaded, and
lookups that prefer an active entry. What a lookup should say is stated over the services in force: a list of a
territory replaces what was loaded for the territory before when its sequence number is higher. The index forgets
neither a replaced service nor, by hashing the bytes alone, one of another kind; so a lookup is exact unless an active
service with the bytes of the query was loaded and none of the query's kind is in force.
-/
import AffinidiTdk.Trust.Xml

namespace AffinidiTdk.Trust

open List Function

/-! ## The registry -/

/-- A service with its provider. -/
structure TrustAnchorEntry where
  providerName : String
  territory : String
  service : ServiceInformation

/-- What a lookup finds. -/
inductive LookupResult
  | trusted (entry : TrustAnchorEntry)
  | inactive (entry : TrustAnchorEntry) (reason : String)
  | notFound

def LookupResult.isTrusted : LookupResult → Bool
  | .trusted _ => true
  | _ => false

/-- The entries of a list, provider by provider. -/
def TrustServiceStatusList.entries (tl : TrustServiceStatusList) : List TrustAnchorEntry :=
  tl.trustServiceProviders.flatMap fun provider => provider.services.map fun service =>
    { providerName := provider.name, territory := provider.territory, service := service }

/-- The services of the loaded lists by identity. -/
structure TrustListRegistry where
  index : Bytes → Option (List TrustAnchorEntry) := fun _ => none
  territories : List String := []
  entryCount : ℕ := 0

namespace TrustListRegistry

variable (sha256 : Bytes → Bytes)

def addTerritory (territory : String) (registry : TrustListRegistry) : TrustListRegistry :=
  if territory ∈ registry.territories then registry
  else { registry with territories := registry.territories ++ [territory] }

/-- One more entry under the fingerprint of its identity. -/
def addEntry (registry : TrustListRegistry) (entry : TrustAnchorEntry) : TrustListRegistry :=
  let fingerprint := entry.service.digitalIdentity.fingerprint sha256
  { registry with
    index := Function.update registry.index fingerprint (some ((registry.index fingerprint).getD [] ++ [entry]))
    entryCount := registry.entryCount + 1 }

def loadTrustList (tl : TrustServiceStatusList) (registry : TrustListRegistry) : TrustListRegistry :=
  tl.entries.foldl (addEntry sha256) (registry.addTerritory tl.schemeInformation.schemeTerritory)

/-- The entry of `add_provider`. -/
def providerEntry (now : ℕ) (territory providerName : String) (serviceType : ServiceType) (status : ServiceStatus)
    (certificateDer : Bytes) : TrustAnchorEntry where
  providerName := providerName
  territory := territory
  service := {
    serviceType := serviceType
    serviceName := providerName
    digitalIdentity := .x509Certificate certificateDer
    serviceStatus := status
    statusStartingTime := now }

def addProvider (now : ℕ) (territory providerName : String) (serviceType : ServiceType) (status : ServiceStatus)
    (certificateDer : Bytes) (registry : TrustListRegistry) : TrustListRegistry :=
  addEntry sha256 (registry.addTerritory territory)
    (providerEntry now territory providerName serviceType status certificateDer)

def lookupByIdentity (identity : ServiceDigitalIdentity) (registry : TrustListRegistry) : LookupResult :=
  match registry.index (identity.fingerprint sha256) with
  | none => .notFound
  | some entries =>
    match entries.find? fun entry => entry.service.serviceStatus.isActive with
    | some entry => .trusted entry
    | none =>
      match entries.head? with
      | some entry => .inactive entry ("Service status: " ++ entry.service.serviceStatus.display)
      | none => .notFound

def lookupByCertificate (certificateDer : Bytes) : TrustListRegistry → LookupResult :=
  lookupByIdentity sha256 (.x509Certificate certificateDer)

def lookupBySki (ski : Bytes) : TrustListRegistry → LookupResult := lookupByIdentity sha256 (.x509Ski ski)

def lookupByPublicKey (key : Bytes) : TrustListRegistry → LookupResult := lookupByIdentity sha256 (.publicKey key)

def lookupByDid (did : String) : TrustListRegistry → LookupResult := lookupByIdentity sha256 (.did did)

end TrustListRegistry

/-! ## Histories -/

/-- Where a list comes from: the parser, with the reader's events, or elsewhere. -/
inductive ListSource
  | xml (crates : XmlCrates) (events : List XmlEvent) (error : Option String)
  | built (tl : TrustServiceStatusList)

/-- A call that adds to the registry. A document that does not parse is not loaded. -/
inductive RegistryCall
  | loadTrustList (source : ListSource)
  | addProvider (now : ℕ) (territory providerName : String) (serviceType : ServiceType) (status : ServiceStatus)
      (certificateDer : Bytes)

def ListSource.list : ListSource → Option TrustServiceStatusList
  | .xml crates events error => (parseTrustListXml crates events error).toOption
  | .built tl => some tl

/-- A parsed service with the empty public key was read without an identity. -/
def ListSource.identifies (source : ListSource) (entry : TrustAnchorEntry) : Bool :=
  match source with
  | .xml _ _ _ => decide (entry.service.digitalIdentity ≠ .publicKey [])
  | .built _ => true

/-- A loaded service, the territory it was loaded for, and whether it was given with an identity. -/
structure Anchor where
  entry : TrustAnchorEntry
  listTerritory : String
  identified : Bool

/-- An active service that has the identity. -/
def Anchor.Vouches (anchor : Anchor) (identity : ServiceDigitalIdentity) : Prop :=
  anchor.identified = true ∧ anchor.entry.service.digitalIdentity = identity ∧
    anchor.entry.service.serviceStatus.isActive = true

/-- An active service with the bytes of the identity, whatever its kind. -/
def Anchor.matchesBytes (anchor : Anchor) (identity : ServiceDigitalIdentity) : Bool :=
  anchor.entry.service.serviceStatus.isActive &&
    decide (anchor.entry.service.digitalIdentity.bytes = identity.bytes)

namespace RegistryCall

def exec (sha256 : Bytes → Bytes) (registry : TrustListRegistry) : RegistryCall → TrustListRegistry
  | .loadTrustList source => source.list.elim registry fun tl => registry.loadTrustList sha256 tl
  | .addProvider now territory providerName serviceType status certificateDer =>
    registry.addProvider sha256 now territory providerName serviceType status certificateDer

/-- What a call adds. -/
def anchors : RegistryCall → List Anchor
  | .loadTrustList source => source.list.elim [] fun tl => tl.entries.map fun entry =>
      ⟨entry, tl.schemeInformation.schemeTerritory, source.identifies entry⟩
  | .addProvider now territory providerName serviceType status certificateDer =>
    [⟨TrustListRegistry.providerEntry now territory providerName serviceType status certificateDer, territory, true⟩]

end RegistryCall

/-- The services in force, and the highest sequence number that was loaded for each territory. -/
structure InForce where
  anchors : List Anchor := []
  latest : String → Option ℕ := fun _ => none

/-- A list with a higher sequence number than the one loaded before replaces the territory's earlier services. -/
def InForce.step (inForce : InForce) (call : RegistryCall) : InForce :=
  match call with
  | .addProvider .. => { inForce with anchors := inForce.anchors ++ call.anchors }
  | .loadTrustList source =>
    match source.list with
    | none => inForce
    | some tl =>
      let territory := tl.schemeInformation.schemeTerritory
      let number := tl.schemeInformation.tslSequenceNumber
      let newer := (inForce.latest territory).any fun latest => latest < number
      let kept := if newer then inForce.anchors.filter
        fun anchor => anchor.listTerritory ≠ territory else inForce.anchors
      { anchors := kept ++ call.anchors
        latest := Function.update inForce.latest territory (some (max number ((inForce.latest territory).getD 0))) }

def registryAfter (sha256 : Bytes → Bytes) (calls : List RegistryCall) : TrustListRegistry :=
  calls.foldl (RegistryCall.exec sha256) {}

def inForceAfter (calls : List RegistryCall) : InForce := calls.foldl InForce.step {}

/-- Everything that was ever loaded. -/
def loaded (calls : List RegistryCall) : List Anchor := calls.flatMap RegistryCall.anchors

/-- A lookup says Trusted exactly when a service in force vouches for the identity, and never on the strength of a
service that was read without an identity. -/
structure LookupExact (sha256 : Bytes → Bytes) (calls : List RegistryCall) (identity : ServiceDigitalIdentity) :
    Prop where
  trusted_iff : ((registryAfter sha256 calls).lookupByIdentity sha256 identity).isTrusted = true ↔
    ∃ anchor ∈ (inForceAfter calls).anchors, anchor.Vouches identity
  identified : ∀ entry, (registryAfter sha256 calls).lookupByIdentity sha256 identity = .trusted entry →
    ∃ anchor ∈ loaded calls, anchor.entry = entry ∧ anchor.identified = true

/-! ## The index -/

section

variable {sha256 : Bytes → Bytes}

namespace TrustListRegistry

variable {registry : TrustListRegistry} {entries : List TrustAnchorEntry}

/-- The index lists the entries of each fingerprint in the order they came. -/
def Indexes (sha256 : Bytes → Bytes) (registry : TrustListRegistry) (entries : List TrustAnchorEntry) : Prop :=
  ∀ fingerprint, (registry.index fingerprint).getD [] =
    entries.filter fun entry => entry.service.digitalIdentity.fingerprint sha256 = fingerprint

section

variable (h : registry.Indexes sha256 entries)
include h

theorem Indexes.addEntry (entry : TrustAnchorEntry) : (registry.addEntry sha256 entry).Indexes sha256
    (entries ++ [entry]) := by
  intro fingerprint
  show (update registry.index _ _ fingerprint).getD [] = _
  rw [filter_append]
  by_cases heq : fingerprint = entry.service.digitalIdentity.fingerprint sha256
  · subst heq
    rw [update_self, Option.getD_some, h]
    simp
  · rw [update_of_ne heq, h, filter_cons_of_neg (by simpa using Ne.symm heq), filter_nil, append_nil]

theorem Indexes.addEntries (more : List TrustAnchorEntry) :
    (more.foldl (TrustListRegistry.addEntry sha256) registry).Indexes sha256 (entries ++ more) := by
  induction more generalizing registry entries with
  | nil =>
    rw [append_nil]
    exact h
  | cons entry more ih =>
    rw [append_cons]
    exact ih (h.addEntry entry)

theorem Indexes.addTerritory (territory : String) : (registry.addTerritory territory).Indexes sha256 entries := by
  unfold TrustListRegistry.addTerritory
  by_cases hmem : territory ∈ registry.territories
  · rwa [if_pos hmem]
  · rw [if_neg hmem]
    exact h

/-- A call indexes the services of the lists it loads. -/
theorem Indexes.exec (call : RegistryCall) : (call.exec sha256 registry).Indexes sha256
    (entries ++ call.anchors.map Anchor.entry) := by
  cases call with
  | addProvider now territory providerName serviceType status certificateDer =>
    exact (h.addTerritory territory).addEntry _
  | loadTrustList source =>
    unfold RegistryCall.exec RegistryCall.anchors
    cases hlist : source.list with
    | none =>
      simp only [hlist, Option.elim_none, map_nil, append_nil]
      exact h
    | some tl =>
      simp only [hlist, Option.elim_some, List.map_map, comp_def, List.map_id']
      exact (h.addTerritory _).addEntries _

end

theorem lookupByIdentity_eq_trusted_iff {identity : ServiceDigitalIdentity} {entry : TrustAnchorEntry} :
    registry.lookupByIdentity sha256 identity = .trusted entry ↔
      ((registry.index (identity.fingerprint sha256)).getD []).find?
        (fun entry => entry.service.serviceStatus.isActive) = some entry := by
  unfold lookupByIdentity
  cases registry.index (identity.fingerprint sha256) with
  | none => simp
  | some entries =>
    simp only [Option.getD_some]
    cases entries.find? fun entry => entry.service.serviceStatus.isActive with
    | some first => simp
    | none =>
      cases entries.head? with
      | some first => simp
      | none => simp

end TrustListRegistry

theorem indexes_after (calls : List RegistryCall) :
    (registryAfter sha256 calls).Indexes sha256 ((loaded calls).map Anchor.entry) := by
  have hfold : ∀ (calls : List RegistryCall) (registry : TrustListRegistry) (entries : List TrustAnchorEntry),
      registry.Indexes sha256 entries →
      (calls.foldl (RegistryCall.exec sha256) registry).Indexes sha256
        (entries ++ (loaded calls).map Anchor.entry) := by
    intro calls
    induction calls with
    | nil =>
      intro registry entries h
      rw [loaded, flatMap_nil, map_nil, append_nil]
      exact h
    | cons call calls ih =>
      intro registry entries h
      rw [loaded, flatMap_cons, map_append, ← append_assoc]
      exact ih _ _ (h.exec call)
  exact hfold calls {} [] fun fingerprint => rfl

/-- A lookup is trusted with the first active service that was ever loaded with the bytes of the identity. -/
theorem lookup_eq_trusted_iff (hinjective : Injective sha256) {calls : List RegistryCall}
    {identity : ServiceDigitalIdentity} {entry : TrustAnchorEntry} :
    (registryAfter sha256 calls).lookupByIdentity sha256 identity = .trusted entry ↔
      ((loaded calls).find? fun anchor => anchor.matchesBytes identity).map Anchor.entry = some entry := by
  rw [TrustListRegistry.lookupByIdentity_eq_trusted_iff, indexes_after, List.find?_filter, List.find?_map]
  have hmatch : ((fun entry : TrustAnchorEntry =>
      decide (decide (entry.service.digitalIdentity.fingerprint sha256 = identity.fingerprint sha256) = true ∧
        entry.service.serviceStatus.isActive = true)) ∘ Anchor.entry) =
          fun anchor => anchor.matchesBytes identity := by
    funext anchor
    simp only [comp_apply, Anchor.matchesBytes, ServiceDigitalIdentity.fingerprint, hinjective.eq_iff,
      decide_eq_true_eq, Bool.decide_and, Bool.decide_eq_true]
    exact Bool.and_comm _ _
  rw [hmatch]

/-! ## What is in force was loaded -/

theorem inForce_subset (calls : List RegistryCall) {anchor : Anchor} (h : anchor ∈ (inForceAfter calls).anchors) :
    anchor ∈ loaded calls := by
  have hfold : ∀ (calls : List RegistryCall) (inForce : InForce),
    ∀ anchor ∈ (calls.foldl InForce.step inForce).anchors,
      anchor ∈ inForce.anchors ∨ anchor ∈ loaded calls := by
    intro calls
    induction calls with
    | nil => exact fun inForce anchor h => .inl h
    | cons call calls ih =>
      intro inForce anchor h
      rw [loaded, flatMap_cons, mem_append]
      rcases ih _ anchor h with hstep | hrest
      · -- a step keeps some of what was there and adds the call's services
        cases call with
        | addProvider now territory providerName serviceType status certificateDer =>
          rcases mem_append.1 hstep with hold | hnew
          · exact .inl hold
          · exact .inr (.inl hnew)
        | loadTrustList source =>
          unfold InForce.step at hstep
          simp only at hstep
          cases hlist : source.list with
          | none =>
            rw [hlist] at hstep
            exact .inl hstep
          | some tl =>
            rw [hlist] at hstep
            rcases mem_append.1 hstep with hkept | hnew
            · left
              split_ifs at hkept
              · exact mem_of_mem_filter hkept
              · exact hkept
            · exact .inr (.inl hnew)
      · exact .inr (.inr hrest)
  exact (hfold calls {} anchor h).resolve_left not_mem_nil

theorem Anchor.Vouches.matchesBytes {anchor : Anchor} {identity : ServiceDigitalIdentity}
    (h : anchor.Vouches identity) : anchor.matchesBytes identity = true := by
  obtain ⟨-, hidentity, hactive⟩ := h
  rw [Anchor.matchesBytes, hactive, hidentity, decide_eq_true rfl]
  rfl

/-! ## When lookups are exact -/

/-- Either no active service with the bytes of the identity was ever loaded, or one of its kind is in force, and the
first that was loaded has an identity. -/
def Unambiguous (calls : List RegistryCall) (identity : ServiceDigitalIdentity) : Prop :=
  ∀ first, ((loaded calls).find? fun anchor => anchor.matchesBytes identity) = some first →
    (∃ anchor ∈ (inForceAfter calls).anchors, anchor.Vouches identity) ∧
    ∃ anchor ∈ loaded calls, anchor.entry = first.entry ∧ anchor.identified = true

theorem isTrusted_iff {result : LookupResult} : result.isTrusted = true ↔ ∃ entry, result = .trusted entry := by
  cases result with
  | trusted entry | inactive entry reason | notFound => simp [LookupResult.isTrusted]

/-- Lookups are exact for an identity if and only if the services loaded with its bytes leave no doubt. -/
theorem lookupExact_iff (hinjective : Injective sha256) (calls : List RegistryCall)
    (identity : ServiceDigitalIdentity) : LookupExact sha256 calls identity ↔ Unambiguous calls identity := by
  constructor
  · intro h first hfirst
    have htrusted : (registryAfter sha256 calls).lookupByIdentity sha256 identity = .trusted first.entry :=
      (lookup_eq_trusted_iff hinjective).2 (by rw [hfirst]; rfl)
    exact ⟨h.trusted_iff.1 (isTrusted_iff.2 ⟨_, htrusted⟩), h.identified _ htrusted⟩
  · intro h
    refine ⟨⟨fun htrusted => ?_, ?_⟩, fun entry htrusted => ?_⟩
    · obtain ⟨entry, hentry⟩ := isTrusted_iff.1 htrusted
      obtain ⟨first, hfirst, -⟩ := Option.map_eq_some_iff.1 ((lookup_eq_trusted_iff hinjective).1 hentry)
      exact (h first hfirst).1
    · rintro ⟨anchor, hanchor, hvouches⟩
      have hsome : ((loaded calls).find? fun anchor => anchor.matchesBytes identity).isSome := by
        rw [List.find?_isSome]
        exact ⟨anchor, inForce_subset calls hanchor, hvouches.matchesBytes⟩
      obtain ⟨first, hfirst⟩ := Option.isSome_iff_exists.1 hsome
      exact isTrusted_iff.2 ⟨first.entry, (lookup_eq_trusted_iff hinjective).2 (by rw [hfirst]; rfl)⟩
    · obtain ⟨first, hfirst, rfl⟩ := Option.map_eq_some_iff.1 ((lookup_eq_trusted_iff hinjective).1 htrusted)
      exact (h first hfirst).2

end

/-! ## One service -/

def listOf (number : ℕ) (status : ServiceStatus) (identity : ServiceDigitalIdentity) : TrustServiceStatusList where
  schemeInformation := {
    tslVersion := 5
    tslSequenceNumber := number
    tslType := .euGeneric
    schemeOperatorName := "operator"
    schemeTerritory := "DE"
    listIssueDateTime := 0
    nextUpdate := none
    pointersToOtherTsl := [] }
  trustServiceProviders := [{
    name := "provider"
    tradeName := none
    territory := "DE"
    informationUris := []
    services := [{
      serviceType := .pid
      serviceName := "service"
      digitalIdentity := identity
      serviceStatus := status
      statusStartingTime := 0 }] }]

/-- A newer list grants again what an older one had withdrawn, and it is looked up. -/
theorem granted_exact :
    LookupExact id [.loadTrustList (.built (listOf 1 .withdrawn (.x509Certificate [1]))),
      .loadTrustList (.built (listOf 2 .granted (.x509Certificate [1])))] (.x509Certificate [1]) := by
  refine (lookupExact_iff injective_id _ _).2 fun first hfirst => ?_
  have hinForce : (inForceAfter [.loadTrustList (.built (listOf 1 .withdrawn (.x509Certificate [1]))),
      .loadTrustList (.built (listOf 2 .granted (.x509Certificate [1])))]).anchors =
      (RegistryCall.loadTrustList (.built (listOf 2 .granted (.x509Certificate [1])))).anchors := rfl
  cases hfirst
  rw [hinForce]
  exact ⟨⟨_, mem_singleton_self _, rfl, rfl, rfl⟩, ⟨_, mem_append_right _ (mem_singleton_self _), rfl, rfl⟩⟩

/-- A service that a newer list withdraws stays trusted; a certificate is trusted as a public key; and a service
without an identity vouches for the empty one. -/
theorem withdrawn_trusted :
    ((registryAfter id [.loadTrustList (.built (listOf 1 .granted (.x509Certificate [1]))),
      .loadTrustList (.built (listOf 2 .withdrawn (.x509Certificate [1])))]).lookupByCertificate id [1]).isTrusted =
      true ∧
    ((registryAfter id [.loadTrustList (.built (listOf 1 .granted (.x509Certificate [1])))]).lookupByPublicKey id
      [1]).isTrusted = true ∧
    ((registryAfter id [.loadTrustList (.xml ⟨fun _ => none, fun _ => none, 0⟩
      [.start "TSPName", .start "Name", .text "provider", .close "Name", .close "TSPName",
        .start "ServiceStatus", .text "http://uri.etsi.org/TrstSvc/TrustedList/Svcstatus/granted",
        .close "ServiceStatus", .close "ServiceInformation",
          .close "TrustServiceProvider"] none)]).lookupByPublicKey id
      []).isTrusted = true ∧
    ¬ ∀ calls identity, LookupExact id calls identity := by
  have hstale : ((registryAfter id [.loadTrustList (.built (listOf 1 .granted (.x509Certificate [1]))),
      .loadTrustList (.built (listOf 2 .withdrawn (.x509Certificate [1])))]).lookupByCertificate id [1]).isTrusted =
      true := by decide +kernel
  refine ⟨hstale, by decide +kernel, by decide +kernel, fun hall => ?_⟩
  obtain ⟨anchor, hanchor, -, -, hactive⟩ := (hall _ (.x509Certificate [1])).trusted_iff.1 hstale
  have hinForce : (inForceAfter [.loadTrustList (.built (listOf 1 .granted (.x509Certificate [1]))),
      .loadTrustList (.built (listOf 2 .withdrawn (.x509Certificate [1])))]).anchors.all
      (fun anchor => !anchor.entry.service.serviceStatus.isActive) = true := by decide +kernel
  have hnot := List.all_eq_true.1 hinForce anchor hanchor
  rw [hactive] at hnot
  cases hnot

end AffinidiTdk.Trust
