/-
Trusted lists (`affinidi-trust-lists`): the parsed list with its providers and services, and the status and type
identifiers of a service.
-/
import AffinidiTdk.Lib.Text

namespace AffinidiTdk.Trust

abbrev Bytes := List UInt8

/-! ## Identifiers -/

/-- The service types with a URI of their own. -/
inductive ServiceType
  | caQc | caPkc | ocspQc | ocsp | crlQc | crl | tsaQtst | tsa | edsQ | edsRemQ | psesQ | qesValidationQ
  | nationalRootCaQc | ra | tlIssuer
  | pid | legalPid | qEaa | eaa | pubEaa | walletProvider | legalWalletProvider | qesrc | accessCa | registrationCa
  | other (uri : String)

def ServiceType.fromUri (uri : String) : ServiceType :=
  if uri = "http://uri.etsi.org/TrstSvc/Svctype/CA/QC" then .caQc
  else if uri = "http://uri.etsi.org/TrstSvc/Svctype/CA/PKC" then .caPkc
  else if uri = "http://uri.etsi.org/TrstSvc/Svctype/Certstatus/OCSP/QC" then .ocspQc
  else if uri = "http://uri.etsi.org/TrstSvc/Svctype/Certstatus/OCSP" then .ocsp
  else if uri = "http://uri.etsi.org/TrstSvc/Svctype/Certstatus/CRL/QC" then .crlQc
  else if uri = "http://uri.etsi.org/TrstSvc/Svctype/Certstatus/CRL" then .crl
  else if uri = "http://uri.etsi.org/TrstSvc/Svctype/TSA/QTST" then .tsaQtst
  else if uri = "http://uri.etsi.org/TrstSvc/Svctype/TSA" then .tsa
  else if uri = "http://uri.etsi.org/TrstSvc/Svctype/EDS/Q" then .edsQ
  else if uri = "http://uri.etsi.org/TrstSvc/Svctype/EDS/REM/Q" then .edsRemQ
  else if uri = "http://uri.etsi.org/TrstSvc/Svctype/PSES/Q" then .psesQ
  else if uri = "http://uri.etsi.org/TrstSvc/Svctype/QESValidation/Q" then .qesValidationQ
  else if uri = "http://uri.etsi.org/TrstSvc/Svctype/NationalRootCA-QC" then .nationalRootCaQc
  else if uri = "http://uri.etsi.org/TrstSvc/Svctype/RA" then .ra
  else if uri = "http://uri.etsi.org/TrstSvc/Svctype/TLIssuer" then .tlIssuer
  else if uri = "http://uri.etsi.org/TrstSvc/Svctype/PID" then .pid
  else if uri = "http://uri.etsi.org/TrstSvc/Svctype/LPID" then .legalPid
  else if uri = "http://uri.etsi.org/TrstSvc/Svctype/EAA/Q" then .qEaa
  else if uri = "http://uri.etsi.org/TrstSvc/Svctype/EAA" then .eaa
  else if uri = "http://uri.etsi.org/TrstSvc/Svctype/EAA/Pub-EAA" then .pubEaa
  else if uri = "http://uri.etsi.org/TrstSvc/Svctype/WalletProvider" then .walletProvider
  else if uri = "http://uri.etsi.org/TrstSvc/Svctype/LegalWalletProvider" then .legalWalletProvider
  else if uri = "http://uri.etsi.org/TrstSvc/Svctype/QESRC" then .qesrc
  else if uri = "http://uri.etsi.org/TrstSvc/Svctype/AccessCA" then .accessCa
  else if uri = "http://uri.etsi.org/TrstSvc/Svctype/RegistrationCA" then .registrationCa
  else .other uri

/-- The states of a service. -/
inductive ServiceStatus
  | granted | withdrawn | recognisedAtNationalLevel | deprecatedAtNationalLevel | supervisionInCessation
  | supervisionCeased | supervisionRevoked | accredited | setByNationalLaw
  | other (uri : String)

/-- The status that ends the URI, whatever stands before it and however many slashes after it. -/
def ServiceStatus.fromUri (uri : String) : ServiceStatus :=
  let normalized := Text.trimEndMatches '/' uri
  let endsWith := fun suffix => Text.endsWith suffix normalized
  if endsWith "/granted" then .granted
  else if endsWith "/withdrawn" then .withdrawn
  else if endsWith "/recognisedatnationallevel" then .recognisedAtNationalLevel
  else if endsWith "/deprecatedatnationallevel" then .deprecatedAtNationalLevel
  else if endsWith "/supervisionincessation" then .supervisionInCessation
  else if endsWith "/supervisionceased" then .supervisionCeased
  else if endsWith "/supervisionrevoked" then .supervisionRevoked
  else if endsWith "/accredited" then .accredited
  else if endsWith "/setbynationallaw" then .setByNationalLaw
  else .other normalized

def ServiceStatus.isActive : ServiceStatus → Bool
  | .granted | .recognisedAtNationalLevel | .accredited => true
  | _ => false

def ServiceStatus.display : ServiceStatus → String
  | .granted => "Granted"
  | .withdrawn => "Withdrawn"
  | .recognisedAtNationalLevel => "Recognised at National Level"
  | .deprecatedAtNationalLevel => "Deprecated at National Level"
  | .supervisionInCessation => "Supervision in Cessation"
  | .supervisionCeased => "Supervision Ceased"
  | .supervisionRevoked => "Supervision Revoked"
  | .accredited => "Accredited"
  | .setByNationalLaw => "Set by National Law"
  | .other uri => "Other(" ++ uri ++ ")"

/-! ## Lists -/

/-- How a service is identified. -/
inductive ServiceDigitalIdentity
  | x509Certificate (cert : Bytes)
  | x509Ski (ski : Bytes)
  | x509SubjectName (name : String)
  | publicKey (key : Bytes)
  | did (did : String)
  deriving DecidableEq

/-- The bytes that are hashed: the kind of the identity is not among them. -/
def ServiceDigitalIdentity.bytes : ServiceDigitalIdentity → Bytes
  | .x509Certificate cert => cert
  | .x509Ski ski => ski
  | .x509SubjectName name => Text.utf8 name
  | .publicKey key => key
  | .did uri => Text.utf8 uri

def ServiceDigitalIdentity.fingerprint (sha256 : Bytes → Bytes) (identity : ServiceDigitalIdentity) : Bytes :=
  sha256 identity.bytes

/-- An earlier state of a service. -/
structure ServiceHistoryEntry where
  serviceType : ServiceType
  serviceStatus : ServiceStatus
  statusStartingTime : ℕ

/-- A service with its state and history. -/
structure ServiceInformation where
  serviceType : ServiceType
  serviceName : String
  digitalIdentity : ServiceDigitalIdentity
  serviceStatus : ServiceStatus
  statusStartingTime : ℕ
  history : List ServiceHistoryEntry := []

/-- A provider with its services. -/
structure TrustServiceProvider where
  name : String
  tradeName : Option String
  territory : String
  informationUris : List String
  services : List ServiceInformation

/-- The kinds of lists. -/
inductive TslType
  | listOfTrustedLists | euGeneric
  | other (uri : String)

def TslType.fromUri (uri : String) : TslType :=
  if Text.contains "EUlistofthelists" uri then .listOfTrustedLists
  else if Text.contains "EUgeneric" uri then .euGeneric
  else .other uri

/-- A pointer to another list. -/
structure OtherTslPointer where
  tslLocation : String
  schemeTerritory : String
  signingCertificates : List Bytes
  schemeOperatorName : Option String

/-- The head of a list. -/
structure SchemeInformation where
  tslVersion : ℕ
  tslSequenceNumber : ℕ
  tslType : TslType
  schemeOperatorName : String
  schemeTerritory : String
  listIssueDateTime : ℕ
  nextUpdate : Option ℕ
  pointersToOtherTsl : List OtherTslPointer

/-- A trusted list. -/
structure TrustServiceStatusList where
  schemeInformation : SchemeInformation
  trustServiceProviders : List TrustServiceProvider

end AffinidiTdk.Trust
