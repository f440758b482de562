/-
What a trusted list is parsed to, element by element (`parse_trust_list_xml` in `xml/mod.rs`). The fields of a service
are forgotten at the end of its `ServiceInformation`, but those in a history or a signature are read as well and held
for the next service; a trade name is held past a provider without a name, an operator past a pointer without a
location. Each element has only what stands in it exactly where nothing that is held comes through.
-/
import AffinidiTdk.Trust.XmlTree

namespace AffinidiTdk.Trust

open List XmlTree ProviderFields ServiceFields Memory

/-! ## The elements of a document -/

/-- What stands in a provider: the services with their own fields, and the fields outside of them. -/
inductive ProviderPart
  | field (token : Token)
  | service (own : List Token)
  deriving DecidableEq

/-- What stands in a document: the pointers and the providers with what is in them, and the fields outside of them. -/
inductive Part
  | field (token : Token)
  | pointer (own : List Token)
  | provider (own : List ProviderPart)
  deriving DecidableEq

namespace XmlTree

/-- The end of an element as a field. -/
def ending (name : String) (path : List String) (children : List XmlTree) : List Token :=
  ((role name path).map fun r => (r, content name children)).toList

mutual

def providerParts (path : List String) : XmlTree → List ProviderPart
  | .element name children =>
    let path := path ++ [localName name]
    if role (localName name) path = some .service then [.service (tokensAll path children)]
    else providerPartsAll path children ++ (ending (localName name) path children).map .field
  | _ => []

def providerPartsAll (path : List String) : List XmlTree → List ProviderPart
  | [] => []
  | node :: nodes => providerParts path node ++ providerPartsAll path nodes

end

mutual

def parts (path : List String) : XmlTree → List Part
  | .element name children =>
    let path := path ++ [localName name]
    if role (localName name) path = some .pointer then [.pointer (tokensAll path children)]
    else if role (localName name) path = some .provider then [.provider (providerPartsAll path children)]
    else partsAll path children ++ (ending (localName name) path children).map .field
  | _ => []

def partsAll (path : List String) : List XmlTree → List Part
  | [] => []
  | node :: nodes => parts path node ++ partsAll path nodes

end

end XmlTree

/-! ## The shape of a document -/

/-- The kinds of parts of a list. -/
inductive Kind
  | scheme
  | pointer
  | provider
  | service
  | closing
  deriving DecidableEq

/-- What a field is a field of. -/
def Role.kind : Role → Kind
  | .version | .sequenceNumber | .listType | .territory | .operator => .scheme
  | .location | .pointerTerritory | .pointerCertificate | .pointerOperator => .pointer
  | .providerName | .tradeName | .uri => .provider
  | .serviceType | .serviceName | .certificate | .status | .startingTime => .service
  | .pointer | .provider | .service => .closing

/-- Outside of a `ServiceInformation`, as in a history, the fields of services may stand, too. -/
def ProviderPart.Shaped : ProviderPart → Prop
  | .field token => token.1.kind = .provider ∨ token.1.kind = .service
  | .service own => ∀ token ∈ own, token.1.kind = .service

/-- Pointers, providers and services are not nested in one another; outside of them stand the fields of the scheme and,
as in a signature, those of services. -/
def Part.Shaped : Part → Prop
  | .field token => token.1.kind = .scheme ∨ token.1.kind = .service
  | .pointer own => ∀ token ∈ own, token.1.kind = .pointer ∨ token.1.kind = .scheme
  | .provider own => ∀ part ∈ own, part.Shaped

/-- A trusted list. -/
structure Shaped (document : List XmlTree) : Prop where
  plain : XmlTree.PlainAll document
  parts : ∀ part ∈ XmlTree.partsAll [] document, part.Shaped

/-! ## What each element says -/

section Own

variable (crates : XmlCrates)

/-- The fields of a service, as they stand in it. -/
def ownService (own : List Token) : ServiceFields := own.foldl (ServiceFields.read crates) {}

def ownPointer (own : List Token) : PointerFields := own.foldl (PointerFields.read crates) {}

def ProviderPart.field? : ProviderPart → Option Token
  | .field token => some token
  | .service _ => none

def ProviderPart.information? : ProviderPart → Option ServiceInformation
  | .field _ => none
  | .service own => some ((ownService crates own).information crates)

/-- The fields of a provider and its services, each as it stands in it. -/
def ownProvider (own : List ProviderPart) : ProviderFields :=
  { (own.filterMap ProviderPart.field?).foldl ProviderFields.read {} with
    services := own.filterMap (ProviderPart.information? crates) }

/-- The pointers with a location, in order. -/
def pointersOf : List Part → List OtherTslPointer
  | [] => []
  | .pointer own :: rest =>
    if (ownPointer crates own).location ≠ "" then (ownPointer crates own).pointer :: pointersOf rest
    else pointersOf rest
  | _ :: rest => pointersOf rest

/-- The providers with a name, in order, in the territory that the scheme has given. -/
def providersOf (scheme : SchemeFields) : List Part → List TrustServiceProvider
  | [] => []
  | .field token :: rest => providersOf (scheme.read token) rest
  | .pointer own :: rest => providersOf (own.foldl SchemeFields.read scheme) rest
  | .provider own :: rest =>
    if (ownProvider crates own).name ≠ "" then
      (ownProvider crates own).provider scheme.territory :: providersOf scheme rest
    else providersOf scheme rest

end Own

/-! ## What is held -/

section Held

variable (crates : XmlCrates)

/-- The fields of a service over those that were held before it. The first name stays, of the others the last. -/
def ServiceFields.over (own held : ServiceFields) : ServiceFields where
  serviceType := own.serviceType.or held.serviceType
  serviceName := if held.serviceName = "" then own.serviceName else held.serviceName
  certificate := own.certificate.or held.certificate
  status := own.status.or held.status
  startingTime := own.startingTime.or held.startingTime

/-- The fields of services that are held after the parts of a provider: those since the last service. -/
def heldService (held : ServiceFields) : List ProviderPart → ServiceFields
  | [] => held
  | .field token :: rest => heldService (held.read crates token) rest
  | .service _ :: rest => heldService {} rest

/-- Nothing that is held changes the service: it has the field itself, or the held one reads as none. A name that is
held comes first, so it has to be the same. -/
structure Absorbs (own held : ServiceFields) : Prop where
  serviceType : own.serviceType.isSome ∨
    ServiceType.fromUri (held.serviceType.getD "") = ServiceType.fromUri ""
  serviceName : held.serviceName = "" ∨ held.serviceName = own.serviceName
  certificate : own.certificate.isSome ∨ held.certificate = none
  status : own.status.isSome ∨ ServiceStatus.fromUri (held.status.getD "") = ServiceStatus.fromUri ""
  startingTime : own.startingTime.isSome ∨
    (crates.parseFromRfc3339 (held.startingTime.getD "")).getD crates.now = (crates.parseFromRfc3339 "").getD crates.now

/-- Each service absorbs what is held before it. -/
def ServicesApart (held : ServiceFields) : List ProviderPart → Prop
  | [] => True
  | .field token :: rest => ServicesApart (held.read crates token) rest
  | .service own :: rest => Absorbs crates (ownService crates own) held ∧ ServicesApart {} rest

/-- Each provider with a name has services that absorb what is held, and no trade name is held for it unless it has one
itself. -/
def ProvidersApart (held : ServiceFields) (tradeName : Option String) : List Part → Prop
  | [] => True
  | .field token :: rest => ProvidersApart (held.read crates token) tradeName rest
  | .pointer _ :: rest => ProvidersApart held tradeName rest
  | .provider own :: rest =>
    if (ownProvider crates own).name ≠ "" then
      (ServicesApart crates held own ∧ ((ownProvider crates own).tradeName.isSome ∨ tradeName = none)) ∧
        ProvidersApart (heldService crates held own) none rest
    else ProvidersApart (heldService crates held own) ((ownProvider crates own).tradeName.or tradeName) rest

/-- For each pointer with a location no operator is held, unless it has one itself. -/
def PointersApart (operator : Option String) : List Part → Prop
  | [] => True
  | .pointer own :: rest =>
    if (ownPointer crates own).location ≠ "" then
      ((ownPointer crates own).operator.isSome ∨ operator = none) ∧ PointersApart none rest
    else PointersApart ((ownPointer crates own).operator.or operator) rest
  | _ :: rest => PointersApart operator rest

/-- The services of a provider, as they are parsed. -/
def parsedServices (held : ServiceFields) : List ProviderPart → List ServiceInformation
  | [] => []
  | .field token :: rest => parsedServices (held.read crates token) rest
  | .service own :: rest => ((ownService crates own).over held).information crates :: parsedServices {} rest

def parsedProviders (scheme : SchemeFields) (held : ServiceFields) (tradeName : Option String) :
    List Part → List TrustServiceProvider
  | [] => []
  | .field token :: rest => parsedProviders (scheme.read token) (held.read crates token) tradeName rest
  | .pointer own :: rest => parsedProviders (own.foldl SchemeFields.read scheme) held tradeName rest
  | .provider own :: rest =>
    let fields := { ownProvider crates own with
      tradeName := (ownProvider crates own).tradeName.or tradeName
      services := parsedServices crates held own }
    if fields.name ≠ "" then
      fields.provider scheme.territory :: parsedProviders scheme (heldService crates held own) none rest
    else parsedProviders scheme (heldService crates held own) fields.tradeName rest

def parsedPointers (operator : Option String) : List Part → List OtherTslPointer
  | [] => []
  | .pointer own :: rest =>
    let fields := { ownPointer crates own with operator := (ownPointer crates own).operator.or operator }
    if fields.location ≠ "" then fields.pointer :: parsedPointers none rest
    else parsedPointers fields.operator rest
  | _ :: rest => parsedPointers operator rest

end Held

/-! ## When nothing comes through -/

section Apart

variable {crates : XmlCrates}

theorem or_getD_iff {β : Type*} (f : String → β) (own held : Option String) :
    f ((own.or held).getD "") = f (own.getD "") ↔ own.isSome ∨ f (held.getD "") = f "" := by
  cases own with
  | none => simp
  | some text => simp

theorem or_eq_iff {α : Type*} (own held : Option α) : own.or held = own ↔ own.isSome ∨ held = none := by
  cases own with
  | none => simp
  | some a => simp

theorem information_over_iff (own held : ServiceFields) :
    (own.over held).information crates = own.information crates ↔ Absorbs crates own held := by
  have hname : (if held.serviceName = "" then own.serviceName else held.serviceName) = own.serviceName ↔
      held.serviceName = "" ∨ held.serviceName = own.serviceName := by
    split_ifs with hempty
    · simp [hempty]
    · simp [hempty]
  have hcertificate : ((own.certificate.or held.certificate).elim (.publicKey []) .x509Certificate :
      ServiceDigitalIdentity) = own.certificate.elim (.publicKey []) .x509Certificate ↔
      own.certificate.isSome ∨ held.certificate = none := by
    cases own.certificate with
    | none =>
      cases held.certificate with
      | none => simp
      | some cert => simp
    | some cert => simp
  unfold information ServiceFields.over
  rw [ServiceInformation.mk.injEq]
  constructor
  · rintro ⟨htype, hname', hidentity, hstatus, htime, -⟩
    exact ⟨(or_getD_iff _ _ _).1 htype, hname.1 hname', hcertificate.1 hidentity, (or_getD_iff _ _ _).1 hstatus,
      (or_getD_iff (fun t => (crates.parseFromRfc3339 t).getD crates.now) _ _).1 htime⟩
  · rintro ⟨htype, hname', hidentity, hstatus, htime⟩
    exact ⟨(or_getD_iff _ _ _).2 htype, hname.2 hname', hcertificate.2 hidentity, (or_getD_iff _ _ _).2 hstatus,
      (or_getD_iff (fun t => (crates.parseFromRfc3339 t).getD crates.now) _ _).2 htime, rfl⟩

theorem parsedServices_iff (held : ServiceFields) (own : List ProviderPart) :
    parsedServices crates held own = own.filterMap (ProviderPart.information? crates) ↔
      ServicesApart crates held own := by
  induction own generalizing held with
  | nil => exact iff_of_true rfl trivial
  | cons part own ih =>
    cases part with
    | field token => exact ih (held.read crates token)
    | service tokens =>
      rw [ServicesApart, parsedServices, filterMap_cons, ← ih, ← information_over_iff]
      exact cons_eq_cons

theorem parsedPointers_iff (operator : Option String) (parts : List Part) :
    parsedPointers crates operator parts = pointersOf crates parts ↔ PointersApart crates operator parts := by
  induction parts generalizing operator with
  | nil => exact iff_of_true rfl trivial
  | cons part parts ih =>
    cases part with
    | field token => exact ih operator
    | provider own => exact ih operator
    | pointer own =>
      rw [PointersApart, parsedPointers, pointersOf]
      dsimp only
      split_ifs with hlocation
      · rw [cons_eq_cons, ih, ← or_eq_iff]
        refine and_congr_left fun _ => ⟨fun h => congrArg OtherTslPointer.schemeOperatorName h, fun h => ?_⟩
        rw [h]
      · exact ih _

theorem parsedProviders_iff (scheme : SchemeFields) (held : ServiceFields) (tradeName : Option String)
    (parts : List Part) : parsedProviders crates scheme held tradeName parts = providersOf crates scheme parts ↔
      ProvidersApart crates held tradeName parts := by
  induction parts generalizing scheme held tradeName with
  | nil => exact iff_of_true rfl trivial
  | cons part parts ih =>
    cases part with
    | field token => exact ih _ _ _
    | pointer own => exact ih _ _ _
    | provider own =>
      rw [ProvidersApart, parsedProviders, providersOf]
      dsimp only
      split_ifs with hname
      · rw [cons_eq_cons, ih, ← or_eq_iff, ← parsedServices_iff]
        refine and_congr_left fun _ => ⟨fun h => ⟨congrArg TrustServiceProvider.services h,
          congrArg TrustServiceProvider.tradeName h⟩, ?_⟩
        rintro ⟨hservices, htrade⟩
        rw [hservices, htrade]
        rfl
      · exact ih _ _ _

end Apart

/-! ## Reading the fields -/

section Fields

variable {crates : XmlCrates}

theorem foldl_eq_self {α β : Type*} {f : β → α → β} {l : List α} (h : ∀ a ∈ l, ∀ b, f b a = b) (b : β) :
    l.foldl f b = b := by
  induction l with
  | nil => rfl
  | cons a l ih =>
    rw [foldl_cons, h a mem_cons_self]
    exact ih fun a' ha' => h a' (mem_cons_of_mem _ ha')

theorem step_field (m : Memory) {token : Token} (h : token.1.kind ≠ .closing) :
    m.step crates token = { m with
      scheme := m.scheme.read token
      pointer := m.pointer.read crates token
      provider := m.provider.read token
      service := m.service.read crates token } := by
  obtain ⟨r, text⟩ := token
  cases r <;> first | rfl | exact absurd rfl h

variable {token : Token}

theorem scheme_read_eq (h : token.1.kind ≠ .scheme) (fields : SchemeFields) : fields.read token = fields := by
  obtain ⟨r, text⟩ := token
  cases r <;> first | rfl | exact absurd rfl h

theorem pointer_read_eq (h : token.1.kind ≠ .pointer) (fields : PointerFields) :
    fields.read crates token = fields := by
  obtain ⟨r, text⟩ := token
  cases r <;> first | rfl | exact absurd rfl h

theorem provider_read_eq (h : token.1.kind ≠ .provider) (fields : ProviderFields) :
    fields.read token = fields := by
  obtain ⟨r, text⟩ := token
  cases r <;> first | rfl | exact absurd rfl h

theorem service_read_eq (h : token.1.kind ≠ .service) (fields : ServiceFields) :
    fields.read crates token = fields := by
  obtain ⟨r, text⟩ := token
  cases r <;> first | rfl | exact absurd rfl h

/-- Without a closing tag the parser only gathers fields. -/
theorem foldl_step (m : Memory) {tokens : List Token} (h : ∀ token ∈ tokens, token.1.kind ≠ .closing) :
    tokens.foldl (step crates) m = { m with
      scheme := tokens.foldl SchemeFields.read m.scheme
      pointer := tokens.foldl (PointerFields.read crates) m.pointer
      provider := tokens.foldl read m.provider
      service := tokens.foldl (read crates) m.service } := by
  induction tokens generalizing m with
  | nil => rfl
  | cons token tokens ih =>
    rw [foldl_cons, step_field m (h token mem_cons_self), ih _ fun t ht => h t (mem_cons_of_mem _ ht)]
    rfl

theorem foldl_service (own : List Token) (held : ServiceFields) :
    own.foldl (read crates) held = (ownService crates own).over held := by
  have hread : ∀ (fields : ServiceFields) (token : Token),
      (fields.over held).read crates token = (fields.read crates token).over held := by
    rintro fields ⟨r, text⟩
    cases r with
    | serviceName =>
      show (if (if held.serviceName = "" then fields.serviceName else held.serviceName) = "" then
        { fields.over held with serviceName := text } else fields.over held) =
        (if fields.serviceName = "" then { fields with serviceName := text } else fields).over held
      by_cases hheld : held.serviceName = ""
      · rw [if_pos hheld]
        split_ifs with hown
        · simp [ServiceFields.over, hheld]
        · rfl
      · rw [if_neg hheld, if_neg hheld]
        split_ifs with hown
        · simp [ServiceFields.over, hheld]
        · rfl
    | certificate =>
      show ({ fields.over held with
        certificate := (decodeCertificate crates text).or (fields.certificate.or held.certificate) } : ServiceFields) = _
      rw [← Option.or_assoc]
      rfl
    | _ => rfl
  have hstart : ({} : ServiceFields).over held = held := by
    unfold ServiceFields.over
    cases hheld : held with
    | mk serviceType serviceName certificate status startingTime =>
      by_cases hname : serviceName = ""
      · simp [hname]
      · simp [hname]
  calc own.foldl (read crates) held
      = own.foldl (read crates) (({} : ServiceFields).over held) := by rw [hstart]
    _ = (ownService crates own).over held := foldl_hom (fun fields : ServiceFields => fields.over held) hread

theorem foldl_pointer (own : List Token) (operator : Option String) :
    own.foldl (PointerFields.read crates) { operator } =
      { ownPointer crates own with operator := (ownPointer crates own).operator.or operator } := by
  have hread : ∀ (fields : PointerFields) (token : Token),
      ({ fields with operator := fields.operator.or operator } : PointerFields).read crates token =
        { fields.read crates token with operator := (fields.read crates token).operator.or operator } := by
    rintro fields ⟨r, text⟩
    cases r <;> rfl
  let held (fields : PointerFields) : PointerFields := { fields with operator := fields.operator.or operator }
  show own.foldl (PointerFields.read crates) (held {}) = held (own.foldl (PointerFields.read crates) {})
  exact foldl_hom held hread

theorem tradeName_services_read (fields : ProviderFields) (token : Token) (tradeName : Option String)
    (services : List ServiceInformation) :
    ({ fields with tradeName := fields.tradeName.or tradeName, services } : ProviderFields).read token =
      { fields.read token with tradeName := (fields.read token).tradeName.or tradeName, services } := by
  obtain ⟨r, text⟩ := token
  cases r with
  | providerName =>
    show (if fields.name = "" then _ else _ : ProviderFields) = mk
      (if fields.name = "" then { fields with name := text } else fields : ProviderFields).name
      ((if fields.name = "" then { fields with name := text } else fields : ProviderFields).tradeName.or tradeName)
      (if fields.name = "" then { fields with name := text } else fields : ProviderFields).uris services
    split_ifs
    · rfl
    · rfl
  | _ => rfl

theorem foldl_providerFields (tokens : List Token) (tradeName : Option String) (services : List ServiceInformation) :
    tokens.foldl read { tradeName, services } =
      { tokens.foldl read {} with
        tradeName := (tokens.foldl read {}).tradeName.or tradeName
        services := services } := by
  let held (fields : ProviderFields) : ProviderFields :=
    { fields with tradeName := fields.tradeName.or tradeName, services }
  show tokens.foldl read (held {}) = held (tokens.foldl read {})
  exact foldl_hom held fun fields token => tradeName_services_read fields token tradeName services

theorem services_read (fields : ProviderFields) (token : Token) (services : List ServiceInformation) :
    ({ fields with services } : ProviderFields).read token = { fields.read token with services } := by
  have h := tradeName_services_read fields token none services
  rwa [Option.or_none, Option.or_none] at h

theorem read_services (fields : ProviderFields) (token : Token) :
    (fields.read token).services = fields.services := by
  have h := congrArg services (services_read fields token fields.services)
  exact h

end Fields

/-! ## Reading the elements -/

section Elements

variable {crates : XmlCrates}

def ProviderPart.step (crates : XmlCrates) (m : Memory) : ProviderPart → Memory
  | .field token => m.step crates token
  | .service own => (own.foldl (Memory.step crates) m).endService crates

def Part.step (crates : XmlCrates) (m : Memory) : Part → Memory
  | .field token => m.step crates token
  | .pointer own => (own.foldl (Memory.step crates) m).endPointer
  | .provider own => (own.foldl (ProviderPart.step crates) m).endProvider

mutual

theorem foldl_providerParts : (node : XmlTree) → ∀ (path : List String) (m : Memory),
    (node.tokens path).foldl (step crates) m = (node.providerParts path).foldl (ProviderPart.step crates) m
  | .text _, _, _ => rfl
  | .other, _, _ => rfl
  | .element name children, path, m => by
    rw [tokens, providerParts, foldl_append]
    split_ifs with hrole
    · rw [hrole]
      rfl
    · rw [foldl_append, foldl_providerPartsAll children, foldl_map]
      rfl

theorem foldl_providerPartsAll : (nodes : List XmlTree) → ∀ (path : List String) (m : Memory),
    (tokensAll path nodes).foldl (step crates) m =
      (providerPartsAll path nodes).foldl (ProviderPart.step crates) m
  | [], _, _ => rfl
  | node :: nodes, path, m => by
    rw [tokensAll, providerPartsAll, foldl_append, foldl_append, foldl_providerParts node,
      foldl_providerPartsAll nodes]

end

mutual

theorem foldl_parts : (node : XmlTree) → ∀ (path : List String) (m : Memory),
    (node.tokens path).foldl (step crates) m = (node.parts path).foldl (Part.step crates) m
  | .text _, _, _ => rfl
  | .other, _, _ => rfl
  | .element name children, path, m => by
    rw [tokens, parts, foldl_append]
    split_ifs with hpointer hprovider
    · rw [hpointer]
      rfl
    · rw [hprovider, foldl_providerPartsAll children]
      rfl
    · rw [foldl_append, foldl_partsAll children, foldl_map]
      rfl

theorem foldl_partsAll : (nodes : List XmlTree) → ∀ (path : List String) (m : Memory),
    (tokensAll path nodes).foldl (step crates) m =
      (partsAll path nodes).foldl (Part.step crates) m
  | [], _, _ => rfl
  | node :: nodes, path, m => by
    rw [tokensAll, partsAll, foldl_append, foldl_append, foldl_parts node,
      foldl_partsAll nodes]

end

theorem foldl_own_service (m : Memory) {own : List Token} (h : ∀ token ∈ own, token.1.kind = .service) :
    (own.foldl (step crates) m).endService crates = { m with
      provider := { m.provider with
        services := m.provider.services ++ [((ownService crates own).over m.service).information crates] }
      service := {} } := by
  have hne : ∀ {kind : Kind}, kind ≠ .service → ∀ token ∈ own, token.1.kind ≠ kind := fun hkind token htoken heq =>
    hkind (heq.symm.trans (h token htoken))
  rw [foldl_step m (hne (by decide)), foldl_service, foldl_eq_self fun t ht => scheme_read_eq (hne (by decide) t ht),
    foldl_eq_self fun t ht => pointer_read_eq (hne (by decide) t ht),
    foldl_eq_self fun t ht => provider_read_eq (hne (by decide) t ht)]
  rfl

theorem foldl_own_provider (m : Memory) {own : List ProviderPart} (h : ∀ part ∈ own, part.Shaped) :
    own.foldl (ProviderPart.step crates) m = { m with
      provider := { (own.filterMap ProviderPart.field?).foldl read m.provider with
        services := m.provider.services ++ parsedServices crates m.service own }
      service := heldService crates m.service own } := by
  induction own generalizing m with
  | nil =>
    rw [parsedServices, append_nil]
    rfl
  | cons part own ih =>
    have ih := fun m => ih m fun p hp => h p (mem_cons_of_mem _ hp)
    have hpart := h part mem_cons_self
    rw [foldl_cons, ih]
    cases part with
    | field token =>
      have hkind : token.1.kind ≠ .closing ∧ token.1.kind ≠ .scheme ∧ token.1.kind ≠ .pointer := by
        rcases hpart with hkind | hkind
        · rw [hkind]
          decide
        · rw [hkind]
          decide
      have hstep : ProviderPart.step crates m (.field token) = { m with
          provider := m.provider.read token
          service := m.service.read crates token } := by
        show m.step crates token = _
        rw [step_field m hkind.1, scheme_read_eq hkind.2.1, pointer_read_eq hkind.2.2]
      rw [hstep, heldService, parsedServices, read_services]
      rfl
    | service tokens =>
      have hstep := @foldl_own_service crates m tokens hpart
      rw [show ProviderPart.step crates m (.service tokens) = _ from hstep]
      have hfields : (own.filterMap ProviderPart.field?).foldl read { m.provider with
          services := m.provider.services ++ [((ownService crates tokens).over m.service).information crates] } =
          { (own.filterMap ProviderPart.field?).foldl read m.provider with
            services := m.provider.services ++ [((ownService crates tokens).over m.service).information crates] } := by
        let held (fields : ProviderFields) : ProviderFields := { fields with
          services := m.provider.services ++ [((ownService crates tokens).over m.service).information crates] }
        show (own.filterMap ProviderPart.field?).foldl read (held m.provider) =
          held ((own.filterMap ProviderPart.field?).foldl read m.provider)
        exact foldl_hom held fun fields token => services_read fields token _
      dsimp only
      rw [hfields, heldService, parsedServices, append_assoc]
      rfl

/-- Between two elements only a trade name and an operator are held, and fields of services. -/
structure Between (m : Memory) (operator tradeName : Option String) : Prop where
  pointer : m.pointer = { operator }
  provider : m.provider = { tradeName }

theorem foldl_part (parts : List Part) (h : ∀ part ∈ parts, part.Shaped) :
    ∀ (m : Memory) (operator tradeName : Option String), Between m operator tradeName →
      (parts.foldl (Part.step crates) m).pointers = m.pointers ++ parsedPointers crates operator parts ∧
      (parts.foldl (Part.step crates) m).providers =
        m.providers ++ parsedProviders crates m.scheme m.service tradeName parts := by
  -- by the parts; what a part without an entry of its own has read stays for the next one
  induction parts with
  | nil => exact fun m _ _ _ => ⟨(append_nil _).symm, (append_nil _).symm⟩
  | cons part parts ih =>
    have ih := ih fun p hp => h p (mem_cons_of_mem _ hp)
    have hpart := h part mem_cons_self
    rintro m operator tradeName ⟨hpointer, hprovider⟩
    rw [foldl_cons]
    cases part with
    | field token =>
      have hkind : token.1.kind ≠ .closing ∧ token.1.kind ≠ .pointer ∧ token.1.kind ≠ .provider := by
        rcases hpart with hkind | hkind
        · rw [hkind]
          decide
        · rw [hkind]
          decide
      have hstep : Part.step crates m (.field token) = { m with
          scheme := m.scheme.read token
          service := m.service.read crates token } := by
        show m.step crates token = _
        rw [step_field m hkind.1, pointer_read_eq hkind.2.1, provider_read_eq hkind.2.2]
      rw [hstep]
      exact ih _ operator tradeName ⟨hpointer, hprovider⟩
    | pointer own =>
      have hkind : ∀ token ∈ own, token.1.kind ≠ .closing ∧ token.1.kind ≠ .provider ∧ token.1.kind ≠ .service := by
        intro token htoken
        rcases hpart token htoken with hkind | hkind
        · rw [hkind]
          decide
        · rw [hkind]
          decide
      have hread : own.foldl (step crates) m = { m with
          scheme := own.foldl SchemeFields.read m.scheme
          pointer := { ownPointer crates own with operator := (ownPointer crates own).operator.or operator } } := by
        rw [foldl_step m fun t ht => (hkind t ht).1, hpointer, foldl_pointer,
          foldl_eq_self fun t ht => provider_read_eq (hkind t ht).2.1,
          foldl_eq_self fun t ht => service_read_eq (hkind t ht).2.2]
      have hstep : Part.step crates m (.pointer own) = (own.foldl (step crates) m).endPointer := rfl
      rw [hstep, hread, endPointer, parsedPointers, parsedProviders]
      dsimp only
      split_ifs with hlocation
      · obtain ⟨hpointers, hproviders⟩ := ih { m with
          scheme := own.foldl SchemeFields.read m.scheme
          pointers := m.pointers ++ [PointerFields.pointer { ownPointer crates own with
            operator := (ownPointer crates own).operator.or operator }]
          pointer := {} } none tradeName ⟨rfl, hprovider⟩
        rw [hpointers, hproviders, append_assoc]
        exact ⟨rfl, rfl⟩
      · exact ih _ _ tradeName ⟨rfl, hprovider⟩
    | provider own =>
      have hread := @foldl_own_provider crates m own hpart
      rw [hprovider, foldl_providerFields] at hread
      have hstep : Part.step crates m (.provider own) = (own.foldl (ProviderPart.step crates) m).endProvider := rfl
      have hskip : parsedPointers crates operator (.provider own :: parts) = parsedPointers crates operator parts := rfl
      rw [hstep, hread, endProvider, hskip, parsedProviders]
      dsimp only
      split_ifs with hname hname' hname'
      · obtain ⟨hpointers, hproviders⟩ := ih { m with
          providers := m.providers ++ [provider m.scheme.territory { ownProvider crates own with
            tradeName := (ownProvider crates own).tradeName.or tradeName
            services := parsedServices crates m.service own }]
          provider := {}
          service := heldService crates m.service own } operator none ⟨hpointer, rfl⟩
        exact ⟨hpointers, hproviders.trans (append_assoc _ _ _)⟩
      · exact absurd hname hname'
      · exact absurd hname' hname
      · exact ih _ operator _ ⟨hpointer, rfl⟩

end Elements

/-! ## The list -/

/-- **When each element has only what stands in it**: the pointers with a location and the providers with a name are
parsed, in order, from their own fields, exactly where nothing that is held before them comes through. -/
theorem parseTrustListXml_iff (crates : XmlCrates) {document : List XmlTree} (h : Shaped document) :
    ∃ tl, parseTrustListXml crates (eventsAll document) none = .ok tl ∧
      ((tl.schemeInformation.pointersToOtherTsl = pointersOf crates (partsAll [] document) ∧
          tl.trustServiceProviders = providersOf crates {} (partsAll [] document)) ↔
        PointersApart crates none (partsAll [] document) ∧
          ProvidersApart crates {} none (partsAll [] document)) := by
  obtain ⟨tl, hparse, hpointers, hproviders⟩ := parseTrustListXml_tree crates h.plain
  refine ⟨tl, hparse, ?_⟩
  obtain ⟨hpointers', hproviders'⟩ :=
    @foldl_part crates _ h.parts {} none none ⟨rfl, rfl⟩
  rw [hpointers, hproviders, foldl_partsAll, hpointers', hproviders', ← parsedPointers_iff none,
    ← parsedProviders_iff {} {} none]
  exact Iff.rfl

/-! ## A list with a history -/

section Example

def leaf (name text : String) : XmlTree := .element name [.text text]

/-- A certificate and a time that are decoded, at a fixed moment. -/
def helloCrates : XmlCrates where
  decodeBase64 s := if s = "SGVsbG8=" then some [72, 101, 108, 108, 111] else none
  parseFromRfc3339 s := if s = "2024-01-15T00:00:00Z" then some 1705276800 else none
  now := 0

/-- A provider with two services, what follows the first one, and a signature with a certificate. -/
def helloDocument (fields history : List XmlTree) : List XmlTree :=
  [.other, .element "tsl:TrustServiceStatusList" [
    .element "SchemeInformation" [leaf "SchemeTerritory" "DE"],
    .element "TrustServiceProvider" [
      .element "TSPName" [leaf "Name" "Hello"],
      .element "TSPService" (.element "ServiceInformation" fields :: history),
      .element "TSPService" [.element "ServiceInformation" []]],
    .element "Signature" [leaf "X509Certificate" "SGVsbG8="]]]

def helloFields : List XmlTree :=
  [.element "ServiceName" [leaf "Name" "Issuing CA"], leaf "StatusStartingTime" "2024-01-15T00:00:00Z",
    leaf "X509Certificate" "SGVsbG8="]

def helloOwn : List Token :=
  [(.serviceName, "Issuing CA"), (.startingTime, "2024-01-15T00:00:00Z"), (.certificate, "SGVsbG8=")]

theorem hello_parts : partsAll [] (helloDocument helloFields []) =
    [.field (.territory, "DE"), .provider [.field (.providerName, "Hello"), .service helloOwn, .service []],
      .field (.certificate, "SGVsbG8=")] := by
  decide +kernel

theorem plain_leaf (name text : String) : (leaf name text).Plain := by
  refine ⟨fun _ child hchild => ?_, trivial, trivial⟩
  cases mem_singleton.1 hchild
  rfl

theorem plain_element {name : String} {children : List XmlTree} (hname : localName name ≠ "X509Certificate")
    (h : PlainAll children) : (element name children).Plain :=
  ⟨fun heq => absurd heq hname, h⟩

theorem hello_plain {fields history : List XmlTree} (hfields : PlainAll fields)
    (hhistory : PlainAll history) : PlainAll (helloDocument fields history) := by
  refine ⟨trivial, plain_element (by decide) ⟨?_, ?_, ?_, trivial⟩, trivial⟩
  · exact plain_element (by decide) ⟨plain_leaf _ _, trivial⟩
  · refine plain_element (by decide) ⟨?_, ?_, ?_, trivial⟩
    · exact plain_element (by decide) ⟨plain_leaf _ _, trivial⟩
    · exact plain_element (by decide) ⟨plain_element (by decide) hfields, hhistory⟩
    · exact plain_element (by decide) ⟨plain_element (by decide) trivial, trivial⟩
  · exact plain_element (by decide) ⟨plain_leaf _ _, trivial⟩

theorem hello_shaped : Shaped (helloDocument helloFields []) := by
  have hfields : PlainAll helloFields :=
    ⟨plain_element (by decide) ⟨plain_leaf _ _, trivial⟩, plain_leaf _ _, plain_leaf _ _, trivial⟩
  refine ⟨hello_plain hfields trivial, ?_⟩
  rw [hello_parts]
  intro part hpart
  rcases mem_cons.1 hpart with rfl | hpart
  · exact .inl rfl
  rcases mem_cons.1 hpart with rfl | hpart
  · intro inner hinner
    rcases mem_cons.1 hinner with rfl | hinner
    · exact .inl rfl
    rcases mem_cons.1 hinner with rfl | hinner
    · intro token htoken
      revert token
      decide
    cases mem_singleton.1 hinner
    exact fun token htoken => absurd htoken not_mem_nil
  cases mem_singleton.1 hpart
  exact .inr rfl

/-- Without a history each of the two services has its own fields. -/
theorem hello_parsed : ∃ tl,
    parseTrustListXml helloCrates (eventsAll (helloDocument helloFields [])) none = .ok tl ∧
      tl.schemeInformation.pointersToOtherTsl = [] ∧
      tl.trustServiceProviders = providersOf helloCrates {} (partsAll [] (helloDocument helloFields [])) := by
  obtain ⟨tl, hparse, hiff⟩ := parseTrustListXml_iff helloCrates hello_shaped
  rw [hello_parts] at hiff ⊢
  obtain ⟨hpointers, hproviders⟩ := hiff.2 (by
    have hname : (ownProvider helloCrates
        [.field (.providerName, "Hello"), .service helloOwn, .service []]).name ≠ "" := by
      decide
    refine ⟨trivial, ?_⟩
    rw [ProvidersApart, ProvidersApart, if_pos hname]
    refine ⟨⟨⟨?_, ?_, trivial⟩, .inr rfl⟩, trivial⟩
    · exact ⟨.inr rfl, .inl rfl, .inr rfl, .inr rfl, .inr rfl⟩
    · exact ⟨.inr rfl, .inl rfl, .inr rfl, .inr rfl, .inr rfl⟩)
  exact ⟨tl, hparse, hpointers, hproviders⟩

/-- A certificate in the history of the first service becomes the identity of the second one. -/
theorem history_leaks : ∃ tl tl',
    parseTrustListXml helloCrates (eventsAll (helloDocument [] [])) none = .ok tl ∧
      parseTrustListXml helloCrates (eventsAll (helloDocument [] [.element "ServiceHistory"
        [leaf "X509Certificate" "SGVsbG8="]])) none = .ok tl' ∧
      (tl.trustServiceProviders.flatMap fun p => p.services.map ServiceInformation.digitalIdentity) =
        [.publicKey [], .publicKey []] ∧
      (tl'.trustServiceProviders.flatMap fun p => p.services.map ServiceInformation.digitalIdentity) =
        [.publicKey [], .x509Certificate [72, 101, 108, 108, 111]] := by
  have hhistory : PlainAll [.element "ServiceHistory" [leaf "X509Certificate" "SGVsbG8="]] :=
    ⟨plain_element (by decide) ⟨plain_leaf _ _, trivial⟩, trivial⟩
  obtain ⟨tl, hparse, -, hproviders⟩ := parseTrustListXml_tree helloCrates (@hello_plain [] [] trivial trivial)
  obtain ⟨tl', hparse', -, hproviders'⟩ := parseTrustListXml_tree helloCrates (@hello_plain [] _ trivial hhistory)
  refine ⟨tl, tl', hparse, hparse', ?_, ?_⟩
  · rw [hproviders]
    decide +kernel
  · rw [hproviders']
    decide +kernel

end Example

end AffinidiTdk.Trust
