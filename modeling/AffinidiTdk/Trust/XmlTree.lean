/-
The parser of trusted lists over the tree of a document (`parse_trust_list_xml` in `xml/mod.rs`). The events of a tree
come in document order, so the parser is a fold over the ends of the elements: each end is read by its place, as a field
of the scheme, of a pointer, of a provider or of a service, or as the end of one of these. What the parser holds in
between are the fields that were read last.
-/
import AffinidiTdk.Trust.Xml

namespace AffinidiTdk.Trust

open List XmlParser

/-! ## Trees -/

/-- A node of a document; comments, declarations and empty elements are `other`. -/
inductive XmlTree
  | element (name : String) (children : List XmlTree)
  | text (text : String)
  | other

namespace XmlTree

mutual

/-- The events of a node, in document order. -/
def events : XmlTree → List XmlEvent
  | .element name children => .start name :: (eventsAll children ++ [.close name])
  | .text t => [.text t]
  | .other => [.other]

def eventsAll : List XmlTree → List XmlEvent
  | [] => []
  | node :: nodes => events node ++ eventsAll nodes

end

/-- What stands in the text buffer after the nodes: the last text that is not blank, since the last element. -/
def lastText (text : String) : List XmlTree → String
  | [] => text
  | .element _ _ :: nodes => lastText "" nodes
  | .text t :: nodes => lastText (if Text.trim t ≠ "" then Text.trim t else text) nodes
  | .other :: nodes => lastText text nodes

/-- The texts of a certificate, put together. -/
def certificateText : List XmlTree → String
  | .text t :: nodes => Text.trim t ++ certificateText nodes
  | _ :: nodes => certificateText nodes
  | [] => ""

def isElement : XmlTree → Bool
  | .element _ _ => true
  | _ => false

end XmlTree

/-! ## Places -/

/-- What the end of an element is for the parser. -/
inductive Role
  | version
  | sequenceNumber
  | listType
  | territory
  | operator
  | location
  | pointerTerritory
  | pointerCertificate
  | pointerOperator
  | pointer
  | providerName
  | tradeName
  | uri
  | provider
  | serviceType
  | serviceName
  | certificate
  | status
  | startingTime
  | service
  deriving DecidableEq

/-- The joined path has the element as a part. -/
def within (element : String) (path : List String) : Bool :=
  decide (element.toList <:+: ['/'].intercalate (path.map String.toList))

def nameRole (path : List String) : Option Role :=
  if within "SchemeOperatorName" path && !within "TrustServiceProvider" path && !within "OtherTSLPointer" path then
    some .operator
  else if within "OtherTSLPointer" path && within "SchemeOperatorName" path then some .pointerOperator
  else if within "TSPName" path then some .providerName
  else if within "TSPTradeName" path then some .tradeName
  else if within "ServiceName" path then some .serviceName
  else none

/-- The role of an element with this local name, where the path leads to it. -/
def role (name : String) (path : List String) : Option Role :=
  if name = "TSLVersionIdentifier" then some .version
  else if name = "TSLSequenceNumber" then some .sequenceNumber
  else if name = "TSLType" then some .listType
  else if name = "SchemeTerritory" then
    if within "OtherTSLPointer" path then some .pointerTerritory else some .territory
  else if name = "Name" then nameRole path
  else if name = "ServiceTypeIdentifier" then some .serviceType
  else if name = "ServiceStatus" then some .status
  else if name = "StatusStartingTime" then some .startingTime
  else if name = "TSLLocation" then some .location
  else if name = "URI" && within "TSPInformationURI" path then some .uri
  else if name = "X509Certificate" then
    if within "OtherTSLPointer" path then some .pointerCertificate else some .certificate
  else if name = "OtherTSLPointer" then some .pointer
  else if name = "ServiceInformation" then some .service
  else if name = "TrustServiceProvider" then some .provider
  else none

/-- The end of an element with a role, and what the element holds. -/
abbrev Token := Role × String

namespace XmlTree

/-- What an element holds for the parser. -/
def content (name : String) (children : List XmlTree) : String :=
  if name = "X509Certificate" then certificateText children else lastText "" children

mutual

/-- The ends of elements that the parser reads, in document order. -/
def tokens (path : List String) : XmlTree → List Token
  | .element name children =>
    let path := path ++ [localName name]
    tokensAll path children ++ ((role (localName name) path).map fun r => (r, content (localName name) children)).toList
  | _ => []

def tokensAll (path : List String) : List XmlTree → List Token
  | [] => []
  | node :: nodes => tokens path node ++ tokensAll path nodes

end

mutual

/-- No element stands in a certificate. -/
def Plain : XmlTree → Prop
  | .element name children =>
    (localName name = "X509Certificate" → ∀ child ∈ children, child.isElement = false) ∧ PlainAll children
  | _ => True

def PlainAll : List XmlTree → Prop
  | [] => True
  | node :: nodes => Plain node ∧ PlainAll nodes

end

end XmlTree

/-! ## What the parser holds -/

/-- What the parser keeps of the scheme. -/
structure SchemeFields where
  territory : String := ""
  operator : String := ""
  listType : String := ""
  version : ℕ := 5
  sequenceNumber : ℕ := 0

/-- What it keeps of a pointer. -/
structure PointerFields where
  location : String := ""
  territory : String := ""
  certificates : List Bytes := []
  operator : Option String := none

/-- What it keeps of a provider. -/
structure ProviderFields where
  name : String := ""
  tradeName : Option String := none
  uris : List String := []
  services : List ServiceInformation := []

/-- What it keeps of a service. -/
structure ServiceFields where
  serviceType : Option String := none
  serviceName : String := ""
  certificate : Option Bytes := none
  status : Option String := none
  startingTime : Option String := none

/-- All that the parser keeps. -/
structure Memory where
  scheme : SchemeFields := {}
  pointer : PointerFields := {}
  provider : ProviderFields := {}
  service : ServiceFields := {}
  pointers : List OtherTslPointer := []
  providers : List TrustServiceProvider := []

section Reading

variable (crates : XmlCrates)

def SchemeFields.read (fields : SchemeFields) : Token → SchemeFields
  | (.version, text) => { fields with version := (Text.parseUnsigned (2 ^ 32) text).getD fields.version }
  | (.sequenceNumber, text) =>
    { fields with sequenceNumber := (Text.parseUnsigned (2 ^ 32) text).getD fields.sequenceNumber }
  | (.listType, text) => { fields with listType := text }
  | (.territory, text) => if fields.territory = "" then { fields with territory := text } else fields
  | (.operator, text) => if fields.operator = "" then { fields with operator := text } else fields
  | _ => fields

def PointerFields.read (fields : PointerFields) : Token → PointerFields
  | (.location, text) => { fields with location := text }
  | (.pointerTerritory, text) => { fields with territory := text }
  | (.pointerOperator, text) => { fields with operator := some text }
  | (.pointerCertificate, text) =>
    { fields with certificates := fields.certificates ++ (decodeCertificate crates text).toList }
  | _ => fields

def ProviderFields.read (fields : ProviderFields) : Token → ProviderFields
  | (.providerName, text) => if fields.name = "" then { fields with name := text } else fields
  | (.tradeName, text) => { fields with tradeName := some text }
  | (.uri, text) => { fields with uris := fields.uris ++ [text] }
  | _ => fields

def ServiceFields.read (fields : ServiceFields) : Token → ServiceFields
  | (.serviceType, text) => { fields with serviceType := some text }
  | (.serviceName, text) => if fields.serviceName = "" then { fields with serviceName := text } else fields
  | (.certificate, text) => { fields with certificate := (decodeCertificate crates text).or fields.certificate }
  | (.status, text) => { fields with status := some text }
  | (.startingTime, text) => { fields with startingTime := some text }
  | _ => fields

/-- The service that the fields make. -/
def ServiceFields.information (fields : ServiceFields) : ServiceInformation where
  serviceType := .fromUri (fields.serviceType.getD "")
  serviceName := fields.serviceName
  digitalIdentity := fields.certificate.elim (.publicKey []) .x509Certificate
  serviceStatus := .fromUri (fields.status.getD "")
  statusStartingTime := (crates.parseFromRfc3339 (fields.startingTime.getD "")).getD crates.now

def PointerFields.pointer (fields : PointerFields) : OtherTslPointer where
  tslLocation := fields.location
  schemeTerritory := fields.territory
  signingCertificates := fields.certificates
  schemeOperatorName := fields.operator

def ProviderFields.provider (territory : String) (fields : ProviderFields) : TrustServiceProvider where
  name := fields.name
  tradeName := fields.tradeName
  territory := territory
  informationUris := fields.uris
  services := fields.services

def Memory.endPointer (m : Memory) : Memory :=
  if m.pointer.location ≠ "" then { m with pointers := m.pointers ++ [m.pointer.pointer], pointer := {} }
  else { m with pointer := { operator := m.pointer.operator } }

def Memory.endService (m : Memory) : Memory :=
  { m with
    provider := { m.provider with services := m.provider.services ++ [m.service.information crates] }
    service := {} }

def Memory.endProvider (m : Memory) : Memory :=
  if m.provider.name ≠ "" then
    { m with providers := m.providers ++ [m.provider.provider m.scheme.territory], provider := {} }
  else { m with provider := { tradeName := m.provider.tradeName } }

/-- Each end of an element is read into the fields that it is one of. -/
def Memory.step (m : Memory) (token : Token) : Memory :=
  match token.1 with
  | .pointer => m.endPointer
  | .service => m.endService crates
  | .provider => m.endProvider
  | _ =>
    { m with
      scheme := m.scheme.read token
      pointer := m.pointer.read crates token
      provider := m.provider.read token
      service := m.service.read crates token }

end Reading

/-- The parser that holds these fields, somewhere in a document. -/
def Memory.parser (m : Memory) (path : List String) (text base64 : String) (inCertificate : Bool) : XmlParser where
  schemeTerritory := m.scheme.territory
  schemeOperatorName := m.scheme.operator
  tslTypeUri := m.scheme.listType
  tslVersion := m.scheme.version
  tslSequenceNumber := m.scheme.sequenceNumber
  providers := m.providers
  pointers := m.pointers
  path := path
  currentTspName := m.provider.name
  currentTspTradeName := m.provider.tradeName
  currentTspUris := m.provider.uris
  currentServices := m.provider.services
  currentServiceType := m.service.serviceType.getD ""
  currentServiceName := m.service.serviceName
  currentServiceCert := m.service.certificate
  currentServiceStatus := m.service.status.getD ""
  currentStatusTime := m.service.startingTime.getD ""
  currentPointerLocation := m.pointer.location
  currentPointerTerritory := m.pointer.territory
  currentPointerCerts := m.pointer.certificates
  currentPointerOperator := m.pointer.operator
  inX509Cert := inCertificate
  certBase64 := base64
  textBuf := text

/-! ## The end of an element -/

variable (m : Memory) (path : List String) (text base64 : String)

section Ends

variable {crates : XmlCrates}

theorem inside_parsed (element : String) (m : Memory) (path : List String) (text base64 : String)
    (inCertificate : Bool) :
    (m.parser path text base64 inCertificate).inside element = within element path := by
  unfold inside Text.contains Text.join within
  rw [String.toList_ofList]
  rfl

/-- An end without a role leaves the fields alone. -/
def Memory.read (crates : XmlCrates) (m : Memory) (end_ : Option Role) (text : String) : Memory :=
  end_.elim m fun r => m.step crates (r, text)

theorem ite_map {α β : Type*} {p : Prop} {dec : Decidable p} {a b : α} {x y : β} {f : β → α} (ha : p → a = f x)
    (hb : ¬ p → b = f y) : (if p then a else b) = f (if p then x else y) := by
  by_cases hp : p
  · rw [if_pos hp, if_pos hp]
    exact ha hp
  · rw [if_neg hp, if_neg hp]
    exact hb hp

theorem read_operator (text : String) : m.read crates (some .operator) text =
    if m.scheme.operator = "" then { m with scheme := { m.scheme with operator := text } } else m := by
  show ({ m with
    scheme := if m.scheme.operator = "" then { m.scheme with operator := text } else m.scheme } : Memory) = _
  split_ifs
  · rfl
  · rfl

theorem read_territory (text : String) : m.read crates (some .territory) text =
    if m.scheme.territory = "" then { m with scheme := { m.scheme with territory := text } } else m := by
  show ({ m with
    scheme := if m.scheme.territory = "" then { m.scheme with territory := text } else m.scheme } : Memory) = _
  split_ifs
  · rfl
  · rfl

theorem read_providerName (text : String) : m.read crates (some .providerName) text =
    if m.provider.name = "" then { m with provider := { m.provider with name := text } } else m := by
  show ({ m with provider := if m.provider.name = "" then { m.provider with name := text } else m.provider } :
    Memory) = _
  split_ifs
  · rfl
  · rfl

theorem read_serviceName (text : String) : m.read crates (some .serviceName) text =
    if m.service.serviceName = "" then { m with service := { m.service with serviceName := text } } else m := by
  show ({ m with
    service := if m.service.serviceName = "" then { m.service with serviceName := text } else m.service } : Memory) = _
  split_ifs
  · rfl
  · rfl

theorem closeName_parsed :
    (m.parser path text base64 false).closeName =
      (m.read crates (nameRole path) text).parser path text base64 false := by
  let held (m : Memory) : XmlParser := m.parser path text base64 false
  let ends (r : Option Role) : XmlParser := held (m.read crates r text)
  unfold closeName
  rw [inside_parsed "SchemeOperatorName", inside_parsed "TrustServiceProvider", inside_parsed "OtherTSLPointer",
    inside_parsed "TSPName", inside_parsed "TSPTradeName", inside_parsed "ServiceName"]
  refine ite_map (f := ends) (fun _ => ?_) fun _ => ite_map (f := ends) (fun _ => rfl) fun _ =>
    ite_map (f := ends) (fun _ => ?_) fun _ => ite_map (f := ends) (fun _ => rfl) fun _ => ?_
  · show _ = (m.read crates (some .operator) text).parser path text base64 false
    rw [read_operator]
    exact ite_map (f := held) (fun _ => rfl) fun _ => rfl
  · show _ = (m.read crates (some .providerName) text).parser path text base64 false
    rw [read_providerName]
    exact ite_map (f := held) (fun _ => rfl) fun _ => rfl
  · show _ = (m.read crates (if within "ServiceName" path then some .serviceName else none) text).parser path text
      base64 false
    by_cases hservice : within "ServiceName" path = true
    · rw [if_pos hservice, read_serviceName]
      by_cases hempty : m.service.serviceName = ""
      · rw [if_pos hempty]
        exact if_pos (by simp [hservice]; exact hempty)
      · rw [if_neg hempty]
        exact if_neg (by simp [hservice]; exact hempty)
    · rw [if_neg hservice]
      exact if_neg (by simp [hservice])

theorem closeOtherTslPointer_parsed :
    (m.parser path text base64 false).closeOtherTslPointer = m.endPointer.parser path text base64 false := by
  unfold closeOtherTslPointer Memory.endPointer
  by_cases hlocation : m.pointer.location ≠ ""
  · rw [if_pos hlocation, if_pos (show (m.parser path text base64 false).currentPointerLocation ≠ "" from hlocation)]
    rfl
  · rw [if_neg hlocation, if_neg (show ¬ (m.parser path text base64 false).currentPointerLocation ≠ "" from hlocation)]
    rfl

theorem closeServiceInformation_parsed :
    (m.parser path text base64 false).closeServiceInformation crates =
      (m.endService crates).parser path text base64 false := by
  unfold closeServiceInformation Memory.endService currentService ServiceFields.information
  cases hcert : m.service.certificate with
  | none | some cert =>
    simp only [Memory.parser, hcert]
    rfl

theorem closeTrustServiceProvider_parsed :
    (m.parser path text base64 false).closeTrustServiceProvider = m.endProvider.parser path text base64 false := by
  unfold closeTrustServiceProvider Memory.endProvider
  by_cases hname : m.provider.name ≠ ""
  · rw [if_pos hname, if_pos (show (m.parser path text base64 false).currentTspName ≠ "" from hname)]
    rfl
  · rw [if_neg hname, if_neg (show ¬ (m.parser path text base64 false).currentTspName ≠ "" from hname)]
    rfl

theorem closeElement_parsed (crates : XmlCrates) (m : Memory) {name : String} (path : List String) (text base64 : String)
    (hname : name ≠ "X509Certificate") :
    (m.parser path text base64 false).closeElement crates name =
      (m.read crates (role name path) text).parser path text base64 false := by
  let held (m : Memory) : XmlParser := m.parser path text base64 false
  let ends (r : Option Role) : XmlParser := held (m.read crates r text)
  unfold closeElement
  rw [inside_parsed "OtherTSLPointer", inside_parsed "TSPInformationURI"]
  refine ite_map (f := ends) (fun _ => rfl) fun _ => ite_map (f := ends) (fun _ => rfl) fun _ =>
    ite_map (f := ends) (fun _ => rfl) fun _ => ite_map (f := ends) (fun _ => ?_) fun _ =>
    ite_map (f := ends) (fun _ => closeName_parsed m path text base64) fun _ =>
    ite_map (f := ends) (fun _ => rfl) fun _ => ite_map (f := ends) (fun _ => rfl) fun _ =>
    ite_map (f := ends) (fun _ => rfl) fun _ => ite_map (f := ends) (fun _ => rfl) fun _ =>
    ite_map (f := ends) (fun _ => rfl) fun _ => ite_map (f := ends) (fun h => absurd h hname) fun _ =>
    ite_map (f := ends) (fun _ => closeOtherTslPointer_parsed m path text base64) fun _ =>
    ite_map (f := ends) (fun _ => closeServiceInformation_parsed m path text base64) fun _ =>
    ite_map (f := ends) (fun _ => closeTrustServiceProvider_parsed m path text base64) fun _ => rfl
  refine ite_map (f := ends) (fun _ => rfl) fun _ => ?_
  show _ = (m.read crates (some .territory) text).parser path text base64 false
  rw [read_territory]
  exact ite_map (f := held) (fun _ => rfl) fun _ => rfl

theorem closeCertificate_parsed (crates : XmlCrates) (m : Memory) (path : List String) (text base64 : String) :
    (m.parser path text base64 true).closeElement crates "X509Certificate" =
      (m.read crates (role "X509Certificate" path) base64).parser path text base64 false := by
  have hclose : (m.parser path text base64 true).closeElement crates "X509Certificate" =
      (m.parser path text base64 true).closeX509Certificate crates := by
    unfold closeElement
    simp
  have hrole : role "X509Certificate" path =
      if within "OtherTSLPointer" path then some .pointerCertificate else some .certificate := by
    unfold role
    simp
  rw [hclose, hrole]
  unfold closeX509Certificate
  by_cases hpointer : within "OtherTSLPointer" path = true
  · have hread : m.read crates (some .pointerCertificate) base64 = { m with pointer := { m.pointer with
        certificates := m.pointer.certificates ++ (decodeCertificate crates base64).toList } } := rfl
    rw [if_pos hpointer, hread]
    cases hder : decodeCertificate crates base64 with
    | none =>
      simp only [Memory.parser, hder]
      simp
    | some der =>
      simp only [Memory.parser, hder]
      exact if_pos ((inside_parsed "OtherTSLPointer" m path "" base64 false).trans hpointer)
  · have hread : m.read crates (some .certificate) base64 = { m with service := { m.service with
        certificate := (decodeCertificate crates base64).or m.service.certificate } } := rfl
    rw [if_neg hpointer, hread]
    cases hder : decodeCertificate crates base64 with
    | none =>
      simp only [Memory.parser, hder]
      rfl
    | some der =>
      simp only [Memory.parser, hder]
      exact if_neg fun h => hpointer ((inside_parsed "OtherTSLPointer" m path "" base64 false).symm.trans h)

end Ends

/-! ## The events of a tree -/

section Events

variable {crates : XmlCrates}

theorem lastText_cons (text : String) (node : XmlTree) (nodes : List XmlTree) :
    XmlTree.lastText text (node :: nodes) = XmlTree.lastText (XmlTree.lastText text [node]) nodes := by
  cases node with
  | element name children => rfl
  | text t => rw [XmlTree.lastText, XmlTree.lastText, XmlTree.lastText]
  | other => rfl

theorem step_text (crates : XmlCrates) (m : Memory) (path : List String) (text base64 t : String) :
    XmlParser.step crates (m.parser path text base64 false) (.text t) =
      m.parser path (XmlTree.lastText text [.text t]) base64 false := by
  show XmlParser.text t (m.parser path text base64 false) = _
  unfold XmlParser.text
  rw [if_neg (show ¬ (m.parser path text base64 false).inX509Cert = true from Bool.false_ne_true), XmlTree.lastText,
    XmlTree.lastText]
  by_cases ht : Text.trim t ≠ ""
  · rw [if_pos ht, if_pos ht]
    rfl
  · rw [if_neg ht, if_neg ht]

theorem foldl_certificate (text : String) {nodes : List XmlTree}
    (h : ∀ node ∈ nodes, node.isElement = false) (base64 : String) :
    (XmlTree.eventsAll nodes).foldl (step crates) (m.parser path text base64 true) =
      m.parser path text (base64 ++ XmlTree.certificateText nodes) true := by
  induction nodes generalizing base64 with
  | nil =>
    rw [XmlTree.certificateText, String.append_empty]
    rfl
  | cons node nodes ih =>
    have ih := fun base64 => ih (fun n hn => h n (mem_cons_of_mem _ hn)) base64
    cases node with
    | element name children => cases h _ mem_cons_self
    | text t =>
      rw [XmlTree.certificateText, ← String.append_assoc]
      exact ih (base64 ++ Text.trim t)
    | other => exact ih base64

theorem tokensAll_of_texts {nodes : List XmlTree} (h : ∀ node ∈ nodes, node.isElement = false) :
    XmlTree.tokensAll path nodes = [] := by
  induction nodes with
  | nil => rfl
  | cons node nodes ih =>
    have ih := ih fun n hn => h n (mem_cons_of_mem _ hn)
    cases node with
    | element name children => cases h _ mem_cons_self
    | text t => exact ih
    | other => exact ih

theorem foldl_end (crates : XmlCrates) (m : Memory) (end_ : Option Role) (text : String) :
    (end_.map fun r => (r, text)).toList.foldl (Memory.step crates) m = m.read crates end_ text := by
  cases end_ with
  | none => rfl
  | some r => rfl

theorem step_close_of_eq {name : String} {st st' : XmlParser} (h : st.closeElement crates (localName name) = st') :
    step crates st (.close name) = { st' with path := st'.path.dropLast, textBuf := "" } := by
  subst h
  rfl

/-- The end of an element, as the parser takes it: its fields are read, and the path is that of its parent. -/
theorem step_close (crates : XmlCrates) (m : Memory) (name : String) (path : List String) (text base64 : String) :
    step crates (m.parser (path ++ [localName name]) text base64 (decide (localName name = "X509Certificate")))
        (.close name) =
      (m.read crates (role (localName name) (path ++ [localName name]))
        (if localName name = "X509Certificate" then base64 else text)).parser path "" base64 false := by
  have hclosed : ∀ m' : Memory, ({ m'.parser (path ++ [localName name]) text base64 false with
      path := (path ++ [localName name]).dropLast, textBuf := "" } : XmlParser) = m'.parser path "" base64 false := by
    intro m'
    rw [dropLast_concat]
    rfl
  by_cases hname : localName name = "X509Certificate"
  · have hclose := closeCertificate_parsed crates m (path ++ [localName name]) text base64
    rw [← hname] at hclose
    rw [if_pos hname, decide_eq_true hname]
    exact (step_close_of_eq hclose).trans (hclosed _)
  · have hclose := closeElement_parsed crates m (path ++ [localName name]) text base64 hname
    rw [if_neg hname, decide_eq_false hname]
    exact (step_close_of_eq hclose).trans (hclosed _)

mutual

/-- The parser reads the ends of a node, one after the other, and is back where it was. -/
theorem foldl_events : (node : XmlTree) → node.Plain → ∀ (m : Memory) (path : List String) (text base64 : String),
    ∃ base64', node.events.foldl (step crates) (m.parser path text base64 false) =
      ((node.tokens path).foldl (Memory.step crates) m).parser path (XmlTree.lastText text [node]) base64' false
  | .text t, _, m, path, text, base64 => by
    refine ⟨base64, ?_⟩
    rw [XmlTree.events, foldl_cons, foldl_nil, step_text]
    rfl
  | .other, _, m, path, text, base64 => ⟨base64, rfl⟩
  | .element name children, hplain, m, path, text, base64 => by
    rw [XmlTree.events, foldl_cons, foldl_append, XmlTree.tokens, foldl_append, foldl_end]
    by_cases hname : localName name = "X509Certificate"
    · have hstart : step crates (m.parser path text base64 false) (.start name) =
          m.parser (path ++ [localName name]) "" "" true := if_pos hname
      rw [hstart, foldl_certificate m _ "" (hplain.1 hname), tokensAll_of_texts _ (hplain.1 hname)]
      have hclose := step_close crates m name path "" (XmlTree.certificateText children)
      rw [decide_eq_true hname, if_pos hname] at hclose
      rw [XmlTree.content, if_pos hname, String.empty_append]
      exact ⟨_, hclose⟩
    · have hstart : step crates (m.parser path text base64 false) (.start name) =
          m.parser (path ++ [localName name]) "" base64 false := if_neg hname
      rw [hstart]
      obtain ⟨base64', heq⟩ := foldl_eventsAll children hplain.2 m (path ++ [localName name]) "" base64
      have hclose := step_close crates
        ((XmlTree.tokensAll (path ++ [localName name]) children).foldl (Memory.step crates) m) name path
        (XmlTree.lastText "" children) base64'
      rw [decide_eq_false hname, if_neg hname] at hclose
      rw [heq, XmlTree.content, if_neg hname]
      exact ⟨base64', hclose⟩

theorem foldl_eventsAll : (nodes : List XmlTree) → XmlTree.PlainAll nodes →
    ∀ (m : Memory) (path : List String) (text base64 : String),
    ∃ base64', (XmlTree.eventsAll nodes).foldl (step crates) (m.parser path text base64 false) =
      ((XmlTree.tokensAll path nodes).foldl (Memory.step crates) m).parser path (XmlTree.lastText text nodes) base64'
        false
  | [], _, m, path, text, base64 => ⟨base64, rfl⟩
  | node :: nodes, hplain, m, path, text, base64 => by
    rw [XmlTree.eventsAll, foldl_append, XmlTree.tokensAll, foldl_append, lastText_cons]
    obtain ⟨base64', heq⟩ := foldl_events node hplain.1 m path text base64
    rw [heq]
    exact foldl_eventsAll nodes hplain.2 _ path _ base64'

end

/-- **What a document is parsed to**: the ends of its elements, read one after the other. -/
theorem parseTrustListXml_tree (crates : XmlCrates) {document : List XmlTree} (h : XmlTree.PlainAll document) :
    ∃ tl, parseTrustListXml crates (XmlTree.eventsAll document) none = .ok tl ∧
      tl.schemeInformation.pointersToOtherTsl =
        ((XmlTree.tokensAll [] document).foldl (Memory.step crates) {}).pointers ∧
      tl.trustServiceProviders = ((XmlTree.tokensAll [] document).foldl (Memory.step crates) {}).providers := by
  obtain ⟨base64, heq⟩ := @foldl_eventsAll crates document h {} [] "" ""
  refine ⟨_, rfl, ?_, ?_⟩
  · exact congrArg pointers heq
  · exact congrArg providers heq

end Events

end AffinidiTdk.Trust
