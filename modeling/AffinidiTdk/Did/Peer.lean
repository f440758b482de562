/-
Peer DIDs with keys and services in their text (`affinidi-did-common`, `did_method/peer.rs`,
`did_method/resolve.rs`, and `DID::generate_peer`). A service travels as base64url of its JSON text; the
JSON reader and the generation of keys are parameters.
-/
import AffinidiTdk.Did.Syntax
import AffinidiTdk.Lib.Base64
import AffinidiTdk.Lib.JsonText
import AffinidiTdk.Lib.Text

namespace AffinidiTdk.Did

/-! ## Keys -/

/-- What a key of a new peer DID is for. -/
inductive PeerKeyPurpose
  | verification
  | encryption
  deriving DecidableEq

def PeerKeyPurpose.toChar : PeerKeyPurpose → Char
  | .verification => 'V'
  | .encryption => 'E'

/-- The curves a `did:peer:2` can be created with. -/
inductive PeerKeyType
  | ed25519
  | secp256k1
  | p256

/-- A key to create a `did:peer:2` from; one without text is generated. -/
structure PeerCreateKey where
  purpose : PeerKeyPurpose
  keyType : Option PeerKeyType
  publicKeyMultibase : Option Text

/-- A generated key; its private half is `d`. -/
structure PeerCreatedKey where
  keyMultibase : Text
  curve : String
  d : String
  x : String
  y : Option String

/-! ## Services -/

/-- A JSON value that is one item or an array of items. -/
inductive OneOrMany (α : Type)
  | one (value : α)
  | many (values : List α)

def OneOrMany.map {α β : Type} (f : α → β) : OneOrMany α → OneOrMany β
  | one value => one (f value)
  | many values => many (values.map f)

/-- The short form of an endpoint. -/
structure PeerServiceEndpointShort where
  uri : String
  a : List String
  r : List String

/-- The long form, that of DID documents. -/
structure PeerServiceEndpointLong where
  uri : String
  accept : List String
  routingKeys : List String

def PeerServiceEndpointShort.toLong (e : PeerServiceEndpointShort) : PeerServiceEndpointLong := ⟨e.uri, e.a, e.r⟩

/-- The endpoint of a service, as a URI or in the long or short form. -/
inductive PeerServiceEndpoint
  | uri (uri : String)
  | long (endpoints : OneOrMany PeerServiceEndpointLong)
  | short (endpoints : OneOrMany PeerServiceEndpointShort)

/-- A service of a `did:peer:2`. -/
structure PeerService where
  type : String
  endpoint : PeerServiceEndpoint
  id : Option String

/-! ### Writing -/

def strings (texts : List String) : Json := .arr (texts.map .str)

/-- A list that is left out when it is empty. -/
def listMember (key : String) (texts : List String) : Json.Fields :=
  if texts.isEmpty then [] else [(key, strings texts)]

/-- The members of an endpoint, in the order of its fields. -/
def PeerServiceEndpointLong.members (e : PeerServiceEndpointLong) : Json.Fields :=
  ("uri", .str e.uri) :: (listMember "accept" e.accept ++ listMember "routing_keys" e.routingKeys)

def PeerServiceEndpointShort.members (e : PeerServiceEndpointShort) : Json.Fields :=
  ("uri", .str e.uri) :: (listMember "a" e.a ++ listMember "r" e.r)

def OneOrMany.toJson {α : Type} (write : α → Json) : OneOrMany α → Json
  | one value => write value
  | many values => .arr (values.map write)

def PeerServiceEndpoint.toJson : PeerServiceEndpoint → Json
  | uri text => .str text
  | long endpoints => endpoints.toJson fun e => .obj e.members
  | short endpoints => endpoints.toJson fun e => .obj e.members

def PeerService.toJson (service : PeerService) : Json :=
  .obj ([("t", .str service.type), ("s", service.endpoint.toJson)] ++
    (service.id.map fun id => ("id", Json.str id)).toList)

/-- The service as an entry of a peer DID. -/
def PeerService.encode (service : PeerService) : Text := 'S' :: Base64.encode (Text.utf8 service.toJson.toText)

/-! ### Reading -/

/-- `serde_json::from_slice` up to the value; members stay in the order of the text. -/
structure JsonReader where
  fromSlice : List UInt8 → Option Json

/-- A list that is empty when it is left out. -/
def readList (key : String) (value : Json) : Option (List String) :=
  match value.get? key with
  | none => some []
  | some value => value.asArray.bind fun items => items.mapM Json.asStr

def PeerServiceEndpointLong.ofJson (value : Json) : Option PeerServiceEndpointLong := do
  let uri ← (value.get? "uri").bind Json.asStr
  let accept ← readList "accept" value
  let routingKeys ← readList "routing_keys" value
  some ⟨uri, accept, routingKeys⟩

def PeerServiceEndpointShort.ofJson (value : Json) : Option PeerServiceEndpointShort := do
  let uri ← (value.get? "uri").bind Json.asStr
  let a ← readList "a" value
  let r ← readList "r" value
  some ⟨uri, a, r⟩

/-- An untagged choice: one value first, then an array of them. -/
def OneOrMany.ofJson {α : Type} (read : Json → Option α) (value : Json) : Option (OneOrMany α) :=
  (read value).map one <|> value.asArray.bind fun items => (items.mapM read).map many

/-- An untagged choice in the order of the declaration. -/
def PeerServiceEndpoint.ofJson (value : Json) : Option PeerServiceEndpoint :=
  value.asStr.map uri <|> (OneOrMany.ofJson PeerServiceEndpointLong.ofJson value).map long <|>
    (OneOrMany.ofJson PeerServiceEndpointShort.ofJson value).map short

/-- An optional text; null stands for none. -/
def readOptional (key : String) (value : Json) : Option (Option String) :=
  match value.get? key with
  | none => some none
  | some .null => some none
  | some value => value.asStr.map some

def PeerService.ofJson (value : Json) : Option PeerService := do
  let type ← (value.get? "t").bind Json.asStr
  let endpoint ← (value.get? "s").bind PeerServiceEndpoint.ofJson
  let id ← readOptional "id" value
  some ⟨type, endpoint, id⟩

/-- `PeerError::ServiceSyntaxError`, as it is displayed. -/
def serviceSyntaxError (msg : String) : String := s!"Syntax error in service definition: {msg}"

def PeerService.decode (reader : JsonReader) (encoded : Text) : Except String PeerService := do
  let encoded := (stripPrefix ['S'] encoded).getD encoded
  let bytes ← (Base64.decode encoded).elim (throw (serviceSyntaxError "Base64 decode failed")) pure
  ((reader.fromSlice bytes).bind PeerService.ofJson).elim (throw (serviceSyntaxError "JSON parse failed")) pure

/-! ## Documents -/

/-- `serde_json::to_value` of an endpoint: a map in the order of its keys. -/
def PeerServiceEndpointLong.toValue (e : PeerServiceEndpointLong) : Json :=
  .obj (e.members.foldl (fun fields member => Json.Fields.insert member.1 member.2 fields) [])

/-- A service endpoint of a document. -/
inductive Endpoint (Url : Type)
  | url (url : Url)
  | map (value : Json)
  deriving DecidableEq

/-- A service of a document. -/
structure Service (Url : Type) where
  id : Option Url
  type : List String
  serviceEndpoint : Endpoint Url
  propertySet : Json.Fields
  deriving DecidableEq

/-- A verification method of a document. -/
structure VerificationMethod (Url : Type) where
  id : Url
  type : String
  controller : Url
  expires : Option String
  revoked : Option String
  propertySet : Json.Fields
  deriving DecidableEq

/-- A relationship names its verification method. -/
structure Document (Url : Type) where
  id : Url
  verificationMethod : List (VerificationMethod Url)
  authentication : List Text
  assertionMethod : List Text
  keyAgreement : List Text
  capabilityDelegation : List Text
  capabilityInvocation : List Text
  service : List (Service Url)
  parametersSet : Json.Fields
  deriving DecidableEq

section Resolve

variable {Url : Type} (crates : Decoders Url) (reader : JsonReader)

/-- The fragment of a service; the first has no number. -/
def PeerService.idFragment (service : PeerService) (index : ℕ) : Text :=
  match service.id with
  | some id => id.toList
  | none => if index = 0 then "#service".toList else "#service-".toList ++ (toString index).toList

/-- The type of a service, its abbreviations written out. -/
def PeerService.fullType (service : PeerService) : String :=
  if service.type = "dm" then "DIDCommMessaging"
  else if service.type = "tsp" then "TSPTransport"
  else service.type

def PeerService.toDidService (service : PeerService) (did : Text) (index : ℕ) : Except String (Service Url) := do
  let id ← (crates.parseUrl (did ++ service.idFragment index)).mapError
    fun e => serviceSyntaxError s!"Invalid service ID: {e}"
  let serviceEndpoint ← match service.endpoint with
    | .uri text => do
      let url ← (crates.parseUrl text.toList).mapError fun e => serviceSyntaxError s!"Invalid URI: {e}"
      pure (Endpoint.url url)
    | .short endpoints =>
        pure (.map ((endpoints.map PeerServiceEndpointShort.toLong).toJson PeerServiceEndpointLong.toValue))
    | .long endpoints => pure (.map (endpoints.toJson PeerServiceEndpointLong.toValue))
  pure ⟨some id, [service.fullType], serviceEndpoint, []⟩

/-- The name of a key in the document, counted from one. -/
def keyId (did : Text) (count : ℕ) : Text := did ++ "#key-".toList ++ (toString count).toList

/-- The document under construction, with the keys and the services counted. -/
structure PeerDocument (Url : Type) where
  verificationMethods : List (VerificationMethod Url)
  authentication : List Text
  assertionMethod : List Text
  keyAgreement : List Text
  capabilityDelegation : List Text
  capabilityInvocation : List Text
  services : List (Service Url)
  keyCount : ℕ
  serviceIdx : ℕ

def PeerDocument.empty : PeerDocument Url := ⟨[], [], [], [], [], [], [], 0, 0⟩

/-- The relationships a key enters. -/
def PeerDocument.relate (kid : Text) (doc : PeerDocument Url) : PeerPurpose → PeerDocument Url
  | .verification =>
    { doc with authentication := doc.authentication ++ [kid], assertionMethod := doc.assertionMethod ++ [kid] }
  | .encryption => { doc with keyAgreement := doc.keyAgreement ++ [kid] }
  | .assertion => { doc with assertionMethod := doc.assertionMethod ++ [kid] }
  | .delegation => { doc with capabilityDelegation := doc.capabilityDelegation ++ [kid] }
  | .invocation => { doc with capabilityInvocation := doc.capabilityInvocation ++ [kid] }
  | .service => doc

/-- One turn of the loop over the entries of a peer DID. -/
def resolvePart (did : DID Url) (doc : PeerDocument Url) : Text → Except DIDError (PeerDocument Url)
  | [] => pure doc
  | purposeChar :: data =>
    match PeerPurpose.fromChar purposeChar with
    | none => throw (.resolutionError s!"Invalid purpose code: {purposeChar}")
    | some .service => do
      let service ← (PeerService.decode reader (purposeChar :: data)).mapError fun e =>
        .resolutionError s!"Service decode error: {e}"
      let didService ← (service.toDidService crates did.toText doc.serviceIdx).mapError fun e =>
        DIDError.resolutionError s!"Service conversion error: {e}"
      pure { doc with services := doc.services ++ [didService], serviceIdx := doc.serviceIdx + 1 }
    | some purpose => do
      let kid := keyId did.toText (doc.keyCount + 1)
      let id ← (crates.parseUrl kid).mapError fun e => DIDError.resolutionError s!"Invalid key ID: {e}"
      let vm := ⟨id, "Multikey", did.url, none, none, [("publicKeyMultibase", .str (str data))]⟩
      pure (PeerDocument.relate kid
        { doc with verificationMethods := doc.verificationMethods ++ [vm], keyCount := doc.keyCount + 1 } purpose)

def resolvePeer2 (did : DID Url) (identifier : Text) : Except DIDError (Document Url) := do
  let content := (stripPrefix ['2'] identifier).getD identifier
  let parts := (content.splitOn '.').filter fun part => !part.isEmpty
  let doc ← parts.foldlM (resolvePart crates reader did) PeerDocument.empty
  pure ⟨did.url, doc.verificationMethods, doc.authentication, doc.assertionMethod, doc.keyAgreement,
    doc.capabilityDelegation, doc.capabilityInvocation, doc.services,
    [("@context", .arr [.str "https://www.w3.org/ns/did/v1.1"])]⟩

/-- `did:key` and `did:peer:0` are resolved by a function of their own, here a parameter. -/
def DID.resolve (resolveKey : DID Url → Except DIDError (Document Url)) (did : DID Url) :
    Except DIDError (Document Url) :=
  match did.method with
  | .key .. => resolveKey did
  | .peer _ .inceptionKey => resolveKey did
  | .peer identifier .multipleKeys => resolvePeer2 crates reader did identifier
  | .peer _ .genesisDoc => throw (.resolutionError "did:peer numalgo 1 (genesis doc) is not supported")
  | method => throw (.resolutionError s!"DID method '{str method.name}' requires network resolution")

end Resolve

/-! ## Generation -/

section Generate

variable {Url : Type} (crates : Decoders Url) (generate : PeerKeyType → Except DIDError PeerCreatedKey)

/-- The entry of a key, and the key where it had to be made. -/
def keyPart (keySpec : PeerCreateKey) : Except DIDError (Text × Option PeerCreatedKey) :=
  match keySpec.publicKeyMultibase with
  | some existing => pure (keySpec.purpose.toChar :: existing, none)
  | none => do
    let keyType ← keySpec.keyType.elim
      (throw (.invalidMethodSpecificId "Must provide either public_key_multibase or key_type")) pure
    let created ← generate keyType
    pure (keySpec.purpose.toChar :: created.keyMultibase, some created)

def generatePeer (keys : List PeerCreateKey) (services : Option (List PeerService)) :
    Except DIDError (DID Url × List PeerCreatedKey) := do
  let parts ← keys.mapM (keyPart generate)
  let entries := parts.map Prod.fst ++ (services.getD []).map PeerService.encode
  let did ← DID.fromStr crates ("did:peer:2".toList ++ entries.flatMap ('.' :: ·))
  pure (did, parts.filterMap Prod.snd)

end Generate

end AffinidiTdk.Did
