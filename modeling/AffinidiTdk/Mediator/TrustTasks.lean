/-
The Trust Task management path (`messages/protocols/trust_tasks.rs`): one `consume_*` function for
each task, and `process`, which asks for an authenticated sender, decodes the document and routes
it by type. The framework crate's own checks of a document, `validate_basic` and the pipeline of
`ping`, are parameters. Random ids and the timestamps of responses are left out.
-/
import AffinidiTdk.Acl.Wire
import AffinidiTdk.Mediator.Shared

namespace AffinidiTdk.Mediator

open Acl Store Fallible

/-! ## Documents -/

/-- The account types of the trust tasks. -/
inductive WireType
  | standard
  | admin
  | rootAdmin
  | mediator
  deriving DecidableEq

def WireType.toAccountType : WireType → AccountType
  | .standard => .standard
  | .admin => .admin
  | .rootAdmin => .rootAdmin
  | .mediator => .mediator

/-- The payload of a task, by type; the last two are a type the mediator does not know and a
payload that does not match its type. -/
inductive TaskPayload
  | ping (nonce : Option String)
  | accountGet (did : String)
  | accountList (cursor : Option String) (limit : Option ℕ)
  | accountAdd (did : String) (accountType : WireType) (acl : Option MediatorAcl)
  | accountRemove (did : String)
  | accountChangeType (did : String) (accountType : WireType)
  | accountChangeQueueLimits (did : String) (sendQueueLimit receiveQueueLimit : Option ℤ)
  | aclGet (dids : List String)
  | aclSet (did : String) (acl : MediatorAcl)
  | accessListAdd (did : String) (entries : List String)
  | accessListRemove (did : String) (entries : List String)
  | accessListClear (did : String)
  | accessListGet (did : String) (entries : List String)
  | accessListList (did : String) (cursor : Option String)
  | adminAdd (dids : List String)
  | adminStrip (dids : List String)
  | adminList (cursor : Option String) (limit : Option ℕ)
  | adminAuditLog (cursor : Option String) (limit : Option ℕ)
  | adminConfig
  | unsupported (typeUri : String)
  | mismatched (err : String)

/-- A document: what the framework reads of it, and its payload. -/
structure TrustTask where
  document : String
  payload : TaskPayload

/-- An account as the trust tasks write it. -/
structure WireAccount where
  did : String
  accountType : WireType
  acl : MediatorAcl
  accessListCount : ℕ
  sendQueueLimit : Option ℤ
  receiveQueueLimit : Option ℤ
  sendQueueCount : ℕ
  sendQueueBytes : ℕ
  receiveQueueCount : ℕ
  receiveQueueBytes : ℕ

/-- The bodies of the answers to trust tasks. -/
inductive TaskResponse
  | ping (response : String)
  | account (account : WireAccount)
  | accountList (accounts : List WireAccount) (nextCursor : Option String)
  | removed (did : String) (removed : Bool)
  | aclEntries (entries : List (String × MediatorAcl)) (unknown : List String)
  | aclSet (did : String) (acl : MediatorAcl)
  | accessListAdded (did : String) (accessListCount : ℕ) (added : List String)
  | accessListRemoved (did : String) (accessListCount : ℕ) (removed : List String)
  | accessListCleared (did : String) (accessListCount : ℕ)
  | accessListPartition (did : String) (present absent : List String)
  | accessListPage (did : String) (accessListCount : ℕ) (entries : List String) (nextCursor : Option String)
  | admins (dids : List String)
  | stripped (dids : List String)
  | adminList (admins : List (String × WireType)) (nextCursor : Option String)
  | auditLog (entries : List AuditLogEntry) (nextCursor : Option String)
  | config (config : Config)

/-- The response message of a task. -/
structure TrustTaskMessage where
  type : String
  thid : String
  recipient : String
  sender : String
  body : TaskResponse

/-- The framework crate: `validate_basic`, with the reason it refuses, and the `ping` pipeline,
`none` where it suppresses the answer. -/
structure Framework where
  validateBasic : TrustTask → ℕ → String → Except String Unit
  consumePing : TrustTask → String → String → ℕ → Except MediatorError (Option String)

namespace TrustTasks

def envelopeType : String := "https://trusttasks.org/binding/didcomm/0.1/envelope"

/-! ## Wire forms -/

def wireType : AccountType → WireType
  | .standard => .standard
  | .admin => .admin
  | .rootAdmin => .rootAdmin
  | .mediator => .mediator
  | .unknown => .standard

def toWireAccount (account : Account) : WireAccount where
  did := account.didHash
  accountType := wireType account.type
  acl := decodeAclCanonical (.fromU64 account.acls)
  accessListCount := account.accessListCount
  sendQueueLimit := account.queueSendLimit
  receiveQueueLimit := account.queueReceiveLimit
  sendQueueCount := account.sendQueueCount
  sendQueueBytes := account.sendQueueBytes
  receiveQueueCount := account.receiveQueueCount
  receiveQueueBytes := account.receiveQueueBytes

/-- `str::parse` to an unsigned integer below `bound`: digits after an optional plus sign. -/
def parseUnsigned (bound : ℕ) (text : String) : Option ℕ :=
  let digits := match text.toList with
    | '+' :: rest => rest
    | chars => chars
  if digits.isEmpty || !digits.all Char.isDigit then none
  else
    let n := digits.foldl (fun n c => 10 * n + (c.toNat - '0'.toNat)) 0
    if n < bound then some n else none

/-- The wire cursor is a text over the store's numeric cursor; anything else starts over. -/
def cursorOf (bound : ℕ) (cursor : Option String) : ℕ := (cursor.bind (parseUnsigned bound)).getD 0

/-- A `u64` limit, cut to 32 bits. -/
def limitOf (limit : Option ℕ) : ℕ := (limit.map fun n => n % 2 ^ 32).getD 100

/-- The store's cursor is 0 when the listing is exhausted. -/
def nextCursorOf (cursor : ℕ) : Option String := if cursor ≠ 0 then some (toString cursor) else none

/-! ## Tasks -/

section

variable (framework : Framework) (state : SharedData) (session : Session) (senderKid : Option String)
  (task : TrustTask)

def ttProblem (code message : String) (status : ℕ) : MediatorError :=
  .problem 37 session.sessionId none .error .protocol code message [] status

/-- The document is addressed to this mediator and not expired. -/
def validateTtBasic : Handler Unit :=
  match framework.validateBasic task state.now state.config.mediatorDid with
  | .ok () => pure ()
  | .error reason =>
    throw (ttProblem session "message.trust_task.rejected" s!"Trust Task failed basic validation: {reason}" 400)

def requirePermission (dids : List String) (message : String) : Handler Unit :=
  if !checkPermissions session dids state.config.security.blockRemoteAdminMsgs senderKid then
    throw (ttProblem session "authorization.account.denied" message 403)
  else pure ()

def requireAdmin (taskName : String) : Handler Unit :=
  if session.isAdmin then pure ()
  else throw (ttProblem session "authorization.admin_required" s!"{taskName} requires an admin account" 403)

def fetchAccount (targetHash missing : String) : Handler Account := do
  match ← step (Store.accountGet targetHash) with
  | some account => return account
  | none => throw (ttProblem session "account.not_found" missing 404)

def consumeAccountGet (did : String) : Handler TaskResponse := do
  validateTtBasic framework state session task
  requirePermission state session senderKid [did] s!"not permitted to read account {did}"
  let account ← fetchAccount session did s!"account {did} not found"
  return .account (toWireAccount account)

def consumeAccountList (cursor : Option String) (limit : Option ℕ) : Handler TaskResponse := do
  validateTtBasic framework state session task
  requireAdmin session "account/list"
  let page ← step (Store.accountList (cursorOf (2 ^ 32) cursor) (limitOf limit))
  return .accountList (page.accounts.map toWireAccount) (nextCursorOf page.cursor)

/-- As the legacy gate of a standard account's limit, arguments in another order. -/
def gateSelfManagedLimit (requested : Option ℤ) (selfManaged : Bool) (hard : ℤ) : Option ℤ :=
  if !selfManaged then none
  else
    match requested with
    | some limit => if limit = -1 ∨ limit = -2 then requested else if limit > hard then some hard else requested
    | none => none

/-- The limits to store, out of the `i64` values of the wire. -/
def gatedLimits (sendQueueLimit receiveQueueLimit : Option ℤ) : Option ℤ × Option ℤ :=
  let reqSend := sendQueueLimit.map asI32
  let reqReceive := receiveQueueLimit.map asI32
  if session.accountType = .standard then
    (gateSelfManagedLimit reqSend session.acls.getSelfManageSendQueueLimit
      state.config.limits.queuedSendMessagesHard,
     gateSelfManagedLimit reqReceive session.acls.getSelfManageReceiveQueueLimit
      state.config.limits.queuedReceiveMessagesHard)
  else (reqSend, reqReceive)

def consumeAccountChangeQueueLimits (did : String) (sendQueueLimit receiveQueueLimit : Option ℤ) :
    Handler TaskResponse := do
  validateTtBasic framework state session task
  requirePermission state session senderKid [did] s!"not permitted to change queue limits for account {did}"
  let limits := gatedLimits state session sendQueueLimit receiveQueueLimit
  step (Store.accountChangeQueueLimits did limits.1 limits.2)
  recordAudit state session did .accountChangeQueueLimits
    s!"send={debugLimit limits.1} receive={debugLimit limits.2}"
  let account ← fetchAccount session did s!"account {did} not found"
  return .account (toWireAccount account)

def consumeAccountRemove (did : String) : Handler TaskResponse := do
  validateTtBasic framework state session task
  requirePermission state session senderKid [did] s!"not permitted to remove account {did}"
  if state.config.mediatorDidHash = did ∨ state.digest state.config.adminDid = did then
    throw (ttProblem session "account.remove.protected"
      "the mediator and root-admin accounts cannot be removed" 403)
  let removed ← step (Store.accountRemove did)
  recordAudit state session did .accountRemove "account removed"
  return .removed did removed

def permissionDenied (reason : String) : MediatorError := ttProblem session "authorization.permission" reason 403

/-- The set-role at the end of a change of type, and the answer. -/
def setTypeAndFetch (did : String) (newType : AccountType) : Handler TaskResponse := do
  step (accountSetRole did newType)
  recordAudit state session did .accountChangeType s!"type -> {newType.display}"
  let account ← fetchAccount session did s!"account {did} not found after change"
  return .account (toWireAccount account)

/-- A change of type for an account that is there. -/
def changeCurrentType (did : String) (newType : AccountType) (current : Account) : Handler TaskResponse :=
  if current.type = .rootAdmin ∧ session.accountType ≠ .rootAdmin then
    throw (permissionDenied session "root-admin access is required to modify a root-admin account")
  else if current.type = newType then
    pure (.account (toWireAccount current))
  else if current.type.isAdmin ∧ newType.isAdmin then
    setTypeAndFetch state session did newType
  else if current.type.isAdmin ∧ !newType.isAdmin then do
    let _ ← step (stripAdminAccounts [did])
    setTypeAndFetch state session did newType
  else if !current.type.isAdmin ∧ newType.isAdmin then do
    step (setupAdminAccount did newType (.fromU64 current.acls))
    recordAudit state session did .accountChangeType s!"type -> {newType.display}"
    let account ← fetchAccount session did s!"account {did} not found after change"
    return .account (toWireAccount account)
  else setTypeAndFetch state session did newType

def consumeAccountChangeType (did : String) (accountType : WireType) : Handler TaskResponse := do
  validateTtBasic framework state session task
  let newType := accountType.toAccountType
  if !(← step (checkAdminAccount session.didHash)) then
    throw (permissionDenied session "admin access is required to change account types")
  if newType = .rootAdmin ∧ session.accountType ≠ .rootAdmin then
    throw (permissionDenied session "root-admin access is required to assign the root-admin role")
  match ← step (Store.accountGet did) with
  | none => setTypeAndFetch state session did newType
  | some current => changeCurrentType state session did newType current

/-- A merge whose failure is an internal error. -/
def mergeAcl (acl : MediatorAcl) (base : MediatorACLSet) : Handler MediatorACLSet :=
  match mergeWireAcl acl base with
  | .ok merged => pure merged
  | .error e => throw (.internalError 14 "NA" s!"ACL update rejected: {e.display}")

/-- The ACLs of a new account: an admin's are applied onto the default. -/
def addedAcls (acl : Option MediatorAcl) : Handler MediatorACLSet :=
  match session.isAdmin, acl with
  | true, some acl => mergeAcl acl state.config.security.globalAclDefault
  | _, _ => pure state.config.security.globalAclDefault

/-- The role of a new account, where it is not the one `account_add` gives. -/
def applyAddedRole (did : String) (newType : AccountType) (account : Account) : Handler Account :=
  if newType ≠ .standard then do
    step (accountSetRole did newType)
    return (← step (Store.accountGet did)).getD account
  else pure account

def consumeAccountAdd (did : String) (accountType : WireType) (acl : Option MediatorAcl) :
    Handler TaskResponse := do
  validateTtBasic framework state session task
  let newType := accountType.toAccountType
  if state.config.security.mediatorAclMode = .explicitAllow ∧ !session.isAdmin then
    throw (permissionDenied session "admin access is required to add accounts")
  if newType = .rootAdmin ∧ session.accountType ≠ .rootAdmin then
    throw (permissionDenied session "root-admin access is required to create a root-admin account")
  if newType.isAdmin ∧ !session.isAdmin then
    throw (permissionDenied session "admin access is required to create an admin account")
  let acls ← addedAcls state session acl
  let account ← step (Store.accountAdd did acls none)
  let account ← applyAddedRole did newType account
  recordAudit state session did .accountAdd "account created"
  return .account (toWireAccount account)

/-- The loop of `acl/get`: the ACLs of the known DIDs, and the others. -/
def collectAcls : List String → Handler (List (String × MediatorAcl) × List String)
  | [] => pure ([], [])
  | did :: rest => do
    let stored ← step (getDidAcl did)
    let (entries, unknown) ← collectAcls rest
    match stored with
    | some acls => return ((did, decodeAclCanonical acls) :: entries, unknown)
    | none => return (entries, did :: unknown)

def consumeAclGet (dids : List String) : Handler TaskResponse := do
  validateTtBasic framework state session task
  requirePermission state session senderKid dids "not permitted to read one or more of the requested ACLs"
  let (entries, unknown) ← collectAcls dids
  return .aclEntries entries unknown

def ensureSelfManageable (acl : MediatorAcl) (base : MediatorACLSet) : Handler Unit :=
  match deniedFlag acl base with
  | none => pure ()
  | some flag =>
    throw (ttProblem session "authorization.acl.not_self_manageable" ("this account may not change " ++
      (String.singleton (Char.ofNat 96) ++ flag ++ String.singleton (Char.ofNat 96))) 403)

def consumeAclSet (did : String) (acl : MediatorAcl) : Handler TaskResponse := do
  validateTtBasic framework state session task
  requirePermission state session senderKid [did] s!"not permitted to set the ACL for {did}"
  let base := (← step (getDidAcl did)).getD default
  if !session.isAdmin then
    ensureSelfManageable session acl base
  let merged ← mergeAcl acl base
  let stored ← step (setDidAcl did merged)
  recordAudit state session did .setAcl ("acl -> 0x" ++ hex16 stored.toU64)
  return .aclSet did (decodeAclCanonical stored)

/-- The session may read the list, or, where it self-manages it, write it. -/
def authorizeAccessList (targetHash : String) (write : Bool) : Handler Unit := do
  requirePermission state session senderKid [targetHash]
    s!"not permitted to access the access list for {targetHash}"
  if write ∧ session.accountType = .standard ∧ !session.acls.getSelfManageList then
    throw (ttProblem session "authorization.account.denied" "this account may not self-manage its access list" 403)

def accessListCount (targetHash : String) : Handler ℕ := do
  return ((← step (Store.accountGet targetHash)).map Account.accessListCount).getD 0

def consumeAccessListAdd (did : String) (entries : List String) : Handler TaskResponse := do
  validateTtBasic framework state session task
  authorizeAccessList state session senderKid did true
  let result ← step (Store.accessListAdd state.config.limits.accessListLimit did entries)
  recordAudit state session did .accessListAdd s!"added {result.didHashes.length} entries"
  let count ← accessListCount did
  return .accessListAdded did count result.didHashes

def consumeAccessListRemove (did : String) (entries : List String) : Handler TaskResponse := do
  validateTtBasic framework state session task
  authorizeAccessList state session senderKid did true
  let present ← step (Store.accessListGet did entries)
  let _ ← step (Store.accessListRemove did entries)
  recordAudit state session did .accessListRemove s!"removed {present.length} entries"
  let count ← accessListCount did
  return .accessListRemoved did count present

def consumeAccessListClear (did : String) : Handler TaskResponse := do
  validateTtBasic framework state session task
  authorizeAccessList state session senderKid did true
  step (Store.accessListClear did)
  recordAudit state session did .accessListClear "access list cleared"
  let count ← accessListCount did
  return .accessListCleared did count

def consumeAccessListGet (did : String) (entries : List String) : Handler TaskResponse := do
  validateTtBasic framework state session task
  authorizeAccessList state session senderKid did false
  let present ← step (Store.accessListGet did entries)
  return .accessListPartition did (entries.filter fun e => present.contains e)
    (entries.filter fun e => !present.contains e)

def consumeAccessListList (did : String) (cursor : Option String) : Handler TaskResponse := do
  validateTtBasic framework state session task
  authorizeAccessList state session senderKid did false
  let page ← step (Store.accessListList did (cursorOf (2 ^ 64) cursor))
  let count ← accessListCount did
  return .accessListPage did count page.didHashes (page.cursor.bind nextCursorOf)

def consumeAdminAdd (dids : List String) : Handler TaskResponse := do
  validateTtBasic framework state session task
  requireAdmin session "admin/add"
  let _ ← step (addAdminAccounts dids state.config.security.globalAclDefault)
  recordAudits state session .adminAdd "promoted to admin" dids
  return .admins dids

def consumeAdminStrip (dids : List String) : Handler TaskResponse := do
  validateTtBasic framework state session task
  requireAdmin session "admin/strip"
  let _ ← step (stripAdminAccounts dids)
  recordAudits state session .adminStrip "admin rights stripped" dids
  return .stripped dids

def consumeAdminList (cursor : Option String) (limit : Option ℕ) : Handler TaskResponse := do
  validateTtBasic framework state session task
  requireAdmin session "admin/list"
  let page ← step (listAdminAccounts (cursorOf (2 ^ 32) cursor) (limitOf limit))
  return .adminList (page.accounts.map fun account => (account.didHash, wireType account.type))
    (nextCursorOf page.cursor)

def consumeAdminAuditLog (cursor : Option String) (limit : Option ℕ) : Handler TaskResponse := do
  validateTtBasic framework state session task
  requireAdmin session "admin/audit-log"
  let page ← step (Store.auditLogList (cursorOf (2 ^ 32) cursor) (limitOf limit))
  return .auditLog page.entries (nextCursorOf page.cursor)

def consumeAdminConfig : Handler TaskResponse := do
  validateTtBasic framework state session task
  requireAdmin session "admin/config"
  return .config state.config

def consumePing (senderDid : String) : Handler (Option TaskResponse) :=
  match framework.consumePing task state.config.mediatorDid senderDid state.now with
  | .ok response => pure (response.map TaskResponse.ping)
  | .error e => throw e

/-- Routing by task type; `none` where nothing is sent back. -/
def dispatch (senderDid : String) : Handler (Option TaskResponse) :=
  match task.payload with
  | .ping _ => consumePing framework state task senderDid
  | .accountGet did => some <$> consumeAccountGet framework state session senderKid task did
  | .accountList cursor limit => some <$> consumeAccountList framework state session task cursor limit
  | .accountAdd did type acl => some <$> consumeAccountAdd framework state session task did type acl
  | .accountRemove did => some <$> consumeAccountRemove framework state session senderKid task did
  | .accountChangeType did type => some <$> consumeAccountChangeType framework state session task did type
  | .accountChangeQueueLimits did send receive =>
    some <$> consumeAccountChangeQueueLimits framework state session senderKid task did send receive
  | .aclGet dids => some <$> consumeAclGet framework state session senderKid task dids
  | .aclSet did acl => some <$> consumeAclSet framework state session senderKid task did acl
  | .accessListAdd did entries => some <$> consumeAccessListAdd framework state session senderKid task did entries
  | .accessListRemove did entries =>
    some <$> consumeAccessListRemove framework state session senderKid task did entries
  | .accessListClear did => some <$> consumeAccessListClear framework state session senderKid task did
  | .accessListGet did entries => some <$> consumeAccessListGet framework state session senderKid task did entries
  | .accessListList did cursor => some <$> consumeAccessListList framework state session senderKid task did cursor
  | .adminAdd dids => some <$> consumeAdminAdd framework state session task dids
  | .adminStrip dids => some <$> consumeAdminStrip framework state session task dids
  | .adminList cursor limit => some <$> consumeAdminList framework state session task cursor limit
  | .adminAuditLog cursor limit => some <$> consumeAdminAuditLog framework state session task cursor limit
  | .adminConfig => some <$> consumeAdminConfig framework state session task
  | .unsupported typeUri =>
    throw (ttProblem session "protocol.trust_task.unsupported" s!"unsupported Trust Task type: {typeUri}" 501)
  | .mismatched err =>
    throw (ttProblem session "message.trust_task.malformed" s!"payload does not match the task type: {err}" 400)

end

def process (framework : Framework) (msg : Message TrustTask) (state : SharedData) (session : Session)
    (metadata : UnpackMetadata) : Handler (Option TrustTaskMessage) := do
  match metadata.senderKid with
  | none =>
    throw (ttProblem session "message.trust_task.unauthenticated"
      "Trust Task envelopes require an authenticated sender" 400)
  | some senderKid =>
    let senderDid := Text.before '#' senderKid
    match msg.body with
    | none => throw (ttProblem session "message.trust_task.malformed" "body is not a Trust Task document" 400)
    | some task =>
      match ← dispatch framework state session (some senderKid) task senderDid with
      | some response => return some ⟨envelopeType, msg.id, senderDid, state.config.mediatorDid, response⟩
      | none => return none

end TrustTasks

end AffinidiTdk.Mediator
