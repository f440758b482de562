/-
The vocabulary of the mediator store (mediator-common `errors.rs`, `types/` and `store/types.rs`):
errors with their problem reports, accounts, audit entries and the entries of the forward queue.
-/
import AffinidiTdk.Acl.Authz
import Mathlib.Data.Prod.Lex

namespace AffinidiTdk.Store

open Acl

/-! ## Errors -/

/-- Whether a problem is an error or a warning. -/
inductive ProblemReportSorter
  | error
  | warning

/-- What a problem undoes. -/
inductive ProblemReportScope
  | protocol
  | message
  | other (s : String)

/-- A problem report. -/
structure ProblemReport where
  code : String
  comment : String
  args : List String
  escalateTo : Option String
  deriving DecidableEq

def ProblemReportSorter.display : ProblemReportSorter → String
  | .error => "e"
  | .warning => "w"

def ProblemReportScope.display : ProblemReportScope → String
  | .protocol => "p"
  | .message => "m"
  | .other s => s

def ProblemReport.new (sorter : ProblemReportSorter) (scope : ProblemReportScope) (descriptor comment : String)
    (args : List String) (escalateTo : Option String) : ProblemReport :=
  ⟨sorter.display ++ "." ++ scope.display ++ "." ++ descriptor, comment, args, escalateTo⟩

/-- The number of a placeholder: digits between braces, nothing else. -/
def placeholder (part : List Char) : Option (Option ℕ) :=
  match part with
  | '\x7b' :: rest =>
    match rest.getLast? with
    | some '\x7d' =>
      let digits := rest.dropLast
      if digits.all Char.isDigit then some (String.ofList digits).toNat? else none
    | _ => none
  | _ => none

/-- The comment with its numbered placeholders replaced by the arguments. -/
def ProblemReport.interpolation (report : ProblemReport) : String :=
  " ".intercalate <| (report.comment.toList.splitOn ' ').map fun part =>
    match placeholder part with
    | none => String.ofList part
    | some none => "?"
    | some (some idx) => if idx = 0 then "?" else report.args.getD (idx - 1) "?"

def ProblemReport.display (report : ProblemReport) : String :=
  let escalateTo := match report.escalateTo with
    | none => "None"
    | some did => s!"Some({did.quote})"
  s!"Problem Report: code: {report.code}, comment: {report.interpolation}, escalate_to: {escalateTo}"

/-- The errors the modelled code raises; the first `String` is the session id. -/
inductive MediatorError
  | internalError (code : ℕ) (sessId msg : String)
  | databaseError (code : ℕ) (sessId msg : String)
  | sessionError (code : ℕ) (sessId msg : String)
  | mediatorError (code : ℕ) (sessId : String) (msgId : Option String) (report : ProblemReport)
      (httpStatus : ℕ) (log : String)
  deriving DecidableEq

namespace MediatorError

def problemWithLog (code : ℕ) (sessionId : String) (msgId : Option String) (sorter : ProblemReportSorter)
    (scope : ProblemReportScope) (descriptor comment : String) (args : List String) (httpStatus : ℕ)
    (log : String) : MediatorError :=
  .mediatorError code sessionId msgId (.new sorter scope descriptor comment args none) httpStatus log

def problem (code : ℕ) (sessionId : String) (msgId : Option String) (sorter : ProblemReportSorter)
    (scope : ProblemReportScope) (descriptor comment : String) (args : List String) (httpStatus : ℕ) :
    MediatorError :=
  problemWithLog code sessionId msgId sorter scope descriptor comment args httpStatus comment

def display : MediatorError → String
  | .internalError _ _ msg => msg
  | .databaseError _ _ msg => "Database Error: " ++ msg
  | .sessionError _ sessId msg => s!"Authorization Session ({sessId}) error: {msg}"
  | .mediatorError _ _ _ report httpStatus _ =>
    s!"Mediator Error: code({report.display}): {httpStatus}"

end MediatorError

/-! ## Accounts -/

/-- The roles of accounts. -/
inductive AccountType
  | mediator
  | rootAdmin
  | admin
  | standard
  | unknown
  deriving DecidableEq

def AccountType.isAdmin : AccountType → Bool
  | .admin | .rootAdmin | .mediator => true
  | .standard | .unknown => false

def AccountType.display : AccountType → String
  | .mediator => "Mediator"
  | .rootAdmin => "Root Admin"
  | .admin => "Admin"
  | .standard => "Standard"
  | .unknown => "Unknown"

/-- An account as the store reports it. Queue limits are `i32`. -/
structure Account where
  didHash : String
  acls : BitVec 64
  type : AccountType
  accessListCount : ℕ
  queueSendLimit : Option ℤ
  queueReceiveLimit : Option ℤ
  sendQueueCount : ℕ
  sendQueueBytes : ℕ
  receiveQueueCount : ℕ
  receiveQueueBytes : ℕ
  deriving DecidableEq

/-- A page of accounts. -/
structure MediatorAccountList where
  accounts : List Account
  cursor : ℕ

/-- The ACL of a DID. -/
structure MediatorACLExpanded where
  didHash : String
  acls : MediatorACLSet

/-- The ACLs that were asked for. -/
structure MediatorACLGetResponse where
  aclResponse : List MediatorACLExpanded
  mediatorAclMode : AccessListModeType

/-- A page of an access list. -/
structure MediatorAccessListListResponse where
  didHashes : List String
  cursor : Option ℕ

/-- The access list after an addition, perhaps cut short. -/
structure MediatorAccessListAddResponse where
  didHashes : List String
  truncated : Bool
  deriving DecidableEq

/-- An administrator with its role. -/
structure AdminAccount where
  didHash : String
  type : AccountType

/-- A page of administrators. -/
structure MediatorAdminList where
  accounts : List AdminAccount
  cursor : ℕ

/-! ## The audit log -/

/-- The actions that are audited. -/
inductive AuditAction
  | setAcl
  | accessListAdd
  | accessListRemove
  | accessListClear
  | accountAdd
  | accountRemove
  | accountChangeType
  | accountChangeQueueLimits
  | adminAdd
  | adminStrip

/-- Who did what to whom. -/
structure AuditLogEntry where
  timestamp : ℕ
  actorDidHash : String
  targetDidHash : String
  action : AuditAction
  detail : String

/-- A page of the audit log. -/
structure MediatorAuditLogList where
  entries : List AuditLogEntry
  cursor : ℕ

def auditLogMaxEntries : ℕ := 10000

/-! ## Messages and the forward queue -/

/-- `(timestamp_ms, sequence)`, in lexicographic order. -/
abbrev StreamId := ℕ ×ₗ ℕ

/-- The two folders of a DID. -/
inductive Folder
  | inbox
  | outbox

/-- In whose name a message is deleted. -/
inductive DeletionAuthority
  | owner (didHash : String)
  | admin (adminDidHash : String)

/-- An entry of the forward queue. Its stream id is its key in the queue. -/
structure ForwardQueueEntry where
  message : String
  toDidHash : String
  fromDidHash : String
  fromDid : String
  toDid : String
  endpointUrl : String
  receivedAtMs : ℕ
  delayMilli : ℤ
  expiresAt : ℕ
  retryCount : ℕ
  hopCount : ℕ
  deriving DecidableEq

/-! ## Integers -/

def saturatingAddU32 (a b : ℕ) : ℕ := min (a + b) (2 ^ 32 - 1)

/-- `v as i32` for a wider `v`: the low 32 bits, as a signed number. -/
def asI32 (v : ℤ) : ℤ := Int.bmod v (2 ^ 32)

end AffinidiTdk.Store
