/-
The XML parser of trusted lists (`xml/mod.rs`): one pass over the events of the reader, with the stack of open
elements and the fields of what is being read. A service takes the last certificate that was decoded since the
service before it; when there was none it gets an empty public key.
-/
import AffinidiTdk.Trust.Types
import AffinidiTdk.Lib.Except
import Mathlib.Algebra.Group.Nat.Defs

namespace AffinidiTdk.Trust

open Fallible

/-- The events of the XML reader; a text comes unescaped. -/
inductive XmlEvent
  | start (name : String)
  | text (text : String)
  | close (name : String)
  | other

/-- The crates the parser calls, and the time. -/
structure XmlCrates where
  decodeBase64 : String → Option Bytes
  parseFromRfc3339 : String → Option ℕ
  now : ℕ

/-- The fields of the parser between two tokens. -/
structure XmlParser where
  schemeTerritory : String := ""
  schemeOperatorName : String := ""
  tslTypeUri : String := ""
  tslVersion : ℕ := 5
  tslSequenceNumber : ℕ := 0
  providers : List TrustServiceProvider := []
  pointers : List OtherTslPointer := []
  path : List String := []
  currentTspName : String := ""
  currentTspTradeName : Option String := none
  currentTspUris : List String := []
  currentServices : List ServiceInformation := []
  currentServiceType : String := ""
  currentServiceName : String := ""
  currentServiceCert : Option Bytes := none
  currentServiceStatus : String := ""
  currentStatusTime : String := ""
  currentPointerLocation : String := ""
  currentPointerTerritory : String := ""
  currentPointerCerts : List Bytes := []
  currentPointerOperator : Option String := none
  inX509Cert : Bool := false
  certBase64 : String := ""
  textBuf : String := ""

/-- The local name of an element, after the last colon. -/
def localName (name : String) : String := String.ofList (name.toList.reverse.takeWhile (· ≠ ':')).reverse

def decodeCertificate (crates : XmlCrates) (base64Content : String) : Option Bytes :=
  crates.decodeBase64 (String.ofList (base64Content.toList.filter fun c => !Text.isWhitespace c))

namespace XmlParser

def start (name : String) (st : XmlParser) : XmlParser :=
  let name := localName name
  let st := { st with path := st.path ++ [name], textBuf := "" }
  if name = "X509Certificate" then { st with inX509Cert := true, certBase64 := "" } else st

def text (text : String) (st : XmlParser) : XmlParser :=
  let trimmed := Text.trim text
  if st.inX509Cert then { st with certBase64 := st.certBase64 ++ trimmed }
  else if trimmed ≠ "" then { st with textBuf := trimmed }
  else st

/-- The open elements contain one of this name, or one whose name has it as a part. -/
def inside (element : String) (st : XmlParser) : Bool := Text.contains element (Text.join '/' st.path)

/-- A `Name` belongs to the scheme, a pointer, a provider or a service. -/
def closeName (st : XmlParser) : XmlParser :=
  if st.inside "SchemeOperatorName" && !st.inside "TrustServiceProvider" && !st.inside "OtherTSLPointer" then
    if st.schemeOperatorName = "" then { st with schemeOperatorName := st.textBuf } else st
  else if st.inside "OtherTSLPointer" && st.inside "SchemeOperatorName" then
    { st with currentPointerOperator := some st.textBuf }
  else if st.inside "TSPName" then
    if st.currentTspName = "" then { st with currentTspName := st.textBuf } else st
  else if st.inside "TSPTradeName" then { st with currentTspTradeName := some st.textBuf }
  else if st.inside "ServiceName" && st.currentServiceName = "" then { st with currentServiceName := st.textBuf }
  else st

def closeX509Certificate (crates : XmlCrates) (st : XmlParser) : XmlParser :=
  let st := { st with inX509Cert := false }
  match decodeCertificate crates st.certBase64 with
  | none => st
  | some der =>
    if st.inside "OtherTSLPointer" then { st with currentPointerCerts := st.currentPointerCerts ++ [der] }
    else { st with currentServiceCert := some der }

def closeOtherTslPointer (st : XmlParser) : XmlParser :=
  let st := if st.currentPointerLocation ≠ "" then
      { st with
        pointers := st.pointers ++ [{
          tslLocation := st.currentPointerLocation
          schemeTerritory := st.currentPointerTerritory
          signingCertificates := st.currentPointerCerts
          schemeOperatorName := st.currentPointerOperator }]
        currentPointerOperator := none }
    else st
  { st with currentPointerLocation := "", currentPointerTerritory := "", currentPointerCerts := [] }

/-- The service that is read, with its certificate or an empty public key for its identity. -/
def currentService (crates : XmlCrates) (st : XmlParser) : ServiceInformation where
  serviceType := .fromUri st.currentServiceType
  serviceName := st.currentServiceName
  digitalIdentity := match st.currentServiceCert with
    | some cert => .x509Certificate cert
    | none => .publicKey []
  serviceStatus := .fromUri st.currentServiceStatus
  statusStartingTime := (crates.parseFromRfc3339 st.currentStatusTime).getD crates.now

def closeServiceInformation (crates : XmlCrates) (st : XmlParser) : XmlParser :=
  { st with
    currentServices := st.currentServices ++ [st.currentService crates]
    currentServiceCert := none
    currentServiceType := ""
    currentServiceName := ""
    currentServiceStatus := ""
    currentStatusTime := "" }

def closeTrustServiceProvider (st : XmlParser) : XmlParser :=
  let st := if st.currentTspName ≠ "" then
      { st with
        providers := st.providers ++ [{
          name := st.currentTspName
          tradeName := st.currentTspTradeName
          territory := st.schemeTerritory
          informationUris := st.currentTspUris
          services := st.currentServices }]
        currentTspTradeName := none }
    else st
  { st with currentTspName := "", currentTspUris := [], currentServices := [] }

/-- What the end of an element does, by its local name. -/
def closeElement (crates : XmlCrates) (name : String) (st : XmlParser) : XmlParser :=
  if name = "TSLVersionIdentifier" then
    { st with tslVersion := (Text.parseUnsigned (2 ^ 32) st.textBuf).getD st.tslVersion }
  else if name = "TSLSequenceNumber" then
    { st with tslSequenceNumber := (Text.parseUnsigned (2 ^ 32) st.textBuf).getD st.tslSequenceNumber }
  else if name = "TSLType" then { st with tslTypeUri := st.textBuf }
  else if name = "SchemeTerritory" then
    if st.inside "OtherTSLPointer" then { st with currentPointerTerritory := st.textBuf }
    else if st.schemeTerritory = "" then { st with schemeTerritory := st.textBuf }
    else st
  else if name = "Name" then st.closeName
  else if name = "ServiceTypeIdentifier" then { st with currentServiceType := st.textBuf }
  else if name = "ServiceStatus" then { st with currentServiceStatus := st.textBuf }
  else if name = "StatusStartingTime" then { st with currentStatusTime := st.textBuf }
  else if name = "TSLLocation" then { st with currentPointerLocation := st.textBuf }
  else if name = "URI" && st.inside "TSPInformationURI" then
    { st with currentTspUris := st.currentTspUris ++ [st.textBuf] }
  else if name = "X509Certificate" then st.closeX509Certificate crates
  else if name = "OtherTSLPointer" then st.closeOtherTslPointer
  else if name = "ServiceInformation" then st.closeServiceInformation crates
  else if name = "TrustServiceProvider" then st.closeTrustServiceProvider
  else st

def close (crates : XmlCrates) (name : String) (st : XmlParser) : XmlParser :=
  let st := st.closeElement crates (localName name)
  { st with path := st.path.dropLast, textBuf := "" }

def step (crates : XmlCrates) (st : XmlParser) : XmlEvent → XmlParser
  | .start name => st.start name
  | .text text => st.text text
  | .close name => st.close crates name
  | .other => st

def finish (crates : XmlCrates) (st : XmlParser) : TrustServiceStatusList where
  schemeInformation := {
    tslVersion := st.tslVersion
    tslSequenceNumber := st.tslSequenceNumber
    tslType :=
      if st.tslTypeUri ≠ "" then .fromUri st.tslTypeUri
      else if st.schemeTerritory = "EU" then .listOfTrustedLists
      else .euGeneric
    schemeOperatorName := st.schemeOperatorName
    schemeTerritory := st.schemeTerritory
    listIssueDateTime := crates.now
    nextUpdate := none
    pointersToOtherTsl := st.pointers }
  trustServiceProviders := st.providers

end XmlParser

/-- The list of a document; the reader gives the events up to its end, or up to an error. -/
def parseTrustListXml (crates : XmlCrates) (events : List XmlEvent) (error : Option String) :
    Except String TrustServiceStatusList :=
  match error with
  | some e => .error ("XML error: XML parse error: " ++ e)
  | none => .ok ((events.foldl (XmlParser.step crates) {}).finish crates)

end AffinidiTdk.Trust
