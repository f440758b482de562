/-
What the mediator's management protocols share: configuration, sessions, messages with their
decoded bodies, permission checks, the replay window of admin requests, the audit record and the
shape of responses. Decoding a JSON body is taken as done: `body` is the request, or `none` where
`serde_json::from_value` fails. Random message ids and log lines are left out.
-/
import AffinidiTdk.Lib.Text
import AffinidiTdk.Store.Memory

namespace AffinidiTdk.Mediator

open Acl Store Fallible

/-! ## Configuration and session -/

/-- The security settings the handlers read. -/
structure SecurityConfig where
  mediatorAclMode : AccessListModeType
  globalAclDefault : MediatorACLSet
  blockRemoteAdminMsgs : Bool
  adminMessagesExpiry : ℕ

/-- The limits the handlers read. -/
structure LimitsConfig where
  queuedSendMessagesHard : ℤ
  queuedReceiveMessagesHard : ℤ
  accessListLimit : ℕ

/-- The settings the handlers read. -/
structure Config where
  mediatorDid : String
  mediatorDidHash : String
  adminDid : String
  security : SecurityConfig
  limits : LimitsConfig

/-- The mediator as a handler sees it: its configuration, its clock in seconds, and the hash it
keys accounts with. -/
structure SharedData where
  config : Config
  now : ℕ
  digest : String → String

/-- What the session extractor found of the requester. -/
structure Session where
  sessionId : String
  did : String
  didHash : String
  acls : MediatorACLSet
  accountType : AccountType

/-- A message as a protocol handler receives it. -/
structure Message (R : Type) where
  id : String
  createdTime : Option ℕ
  body : Option R

/-- Who signed and who encrypted the request. -/
structure UnpackMetadata where
  signFrom : Option String
  encryptedFromKid : Option String

/-- The signer, or else the authcrypt sender. -/
def UnpackMetadata.senderKid (metadata : UnpackMetadata) : Option String :=
  metadata.signFrom <|> metadata.encryptedFromKid

/-- A handler runs against the store, which keeps what was written before a failure. -/
abbrev Handler := Action MemoryState MediatorError

/-! ## Responses -/

/-- The bodies of the answers. -/
inductive ResponseBody
  | account (account : Option Account)
  | accountList (page : MediatorAccountList)
  | flag (value : Bool)
  | count (n : ℕ)
  | unit
  | queueLimits (sendQueueLimit receiveQueueLimit : Option ℤ)
  | acls (acls : MediatorACLSet)
  | aclList (response : MediatorACLGetResponse)
  | accessListPage (response : MediatorAccessListListResponse)
  | accessListAdded (response : MediatorAccessListAddResponse)
  | didHashes (hashes : List String)
  | adminList (page : MediatorAdminList)
  | auditLog (page : MediatorAuditLogList)
  | configuration (config : Config)

/-- A response message, always to be stored for its recipient. -/
structure ProcessMessageResponse where
  type : String
  thid : String
  recipient : String
  sender : String
  body : ResponseBody

/-! ## Permissions -/

def Session.isAdmin (session : Session) : Bool :=
  session.accountType = .admin || session.accountType = .rootAdmin

def checkAdminSignature (session : Session) (senderKid : Option String) : Bool :=
  match senderKid with
  | some kid =>
    match Text.splitOnce '#' kid with
    | some (did, _) => did = session.did
    | none => false
  | none => false

def checkPermissions (session : Session) (dids : List String) (checkAdminSigning : Bool)
    (signBy : Option String) : Bool :=
  if checkAdminSigning && session.isAdmin && !checkAdminSignature session signBy then false
  else session.isAdmin || dids = [session.didHash]

/-! ## Errors -/

/-- `authorization.permission`, with the reason in the comment. -/
def denied (session : Session) (msgId comment : String) : MediatorError :=
  .problem 45 session.sessionId (some msgId) .error .protocol "authorization.permission" comment [] 403

/-- A failed store call, as every handler reports it. -/
def storageError (session : Session) (msgId : String) (e : MediatorError) : MediatorError :=
  .problemWithLog 14 session.sessionId (some msgId) .error .protocol "me.res.storage.error"
    "Database transaction error: \x7b1\x7d" [e.display] 503 s!"Database transaction error: {e.display}"

/-- A body that does not decode; each protocol has its own code. -/
def parseError (code : ℕ) (descriptor : String) (session : Session) (msgId : String) : MediatorError :=
  .problem code session.sessionId (some msgId) .warning .message descriptor
    "Message body couldn't be parsed correctly" [] 400

/-- Tried to remove the mediator or the root admin. -/
def removeProtected (session : Session) (msgId : String) : MediatorError :=
  .problem 18 session.sessionId (some msgId) .warning .message "database.account.remove.protected"
    "Tried to remove a protected account (Mediator, Root-Admin)" [] 403

/-! ## Steps of a handler -/

section Steps

variable (state : SharedData) (session : Session)

/-- The replay window of an admin request. -/
def checkAdminTtl {R : Type} (msg : Message R) : Handler Unit :=
  match adminMessageTtlStatus msg.createdTime state.config.security.adminMessagesExpiry state.now with
  | .ok => pure ()
  | .expired createdTime =>
    throw (.problemWithLog 31 session.sessionId (some msg.id) .error .protocol "message.expired"
      "Message was created too long ago for admin requests: \x7b1\x7d" [toString createdTime] 400
      "Message was created too long ago for admin requests")
  | .missing =>
    throw (.problem 91 session.sessionId (some msg.id) .error .protocol "message.created_time.missing"
      "Admin messages must include a created_time header" [] 400)

/-- A store call whose failure becomes a problem report. -/
def storeCall {α : Type} (msgId : String) (op : StoreOp α) : Handler α :=
  mapError (storageError session msgId) (step op)

def recordAudit (targetDidHash : String) (action : AuditAction) (detail : String) : Handler Unit :=
  step (auditLogRecord ⟨state.now, session.didHash, targetDidHash, action, detail⟩)

/-- One audit record for each target. -/
def recordAudits (action : AuditAction) (detail : String) : List String → Handler Unit
  | [] => pure ()
  | target :: rest => do
    recordAudit state session target action detail
    recordAudits action detail rest

end Steps

/-! ## What a successful step leaves -/

section Specs

variable {state : SharedData} {session : Session} {s s' : MemoryState}

/-- The message is dated, and not too long ago for an admin request. -/
def InReplayWindow {R : Type} (state : SharedData) (msg : Message R) : Prop :=
  adminMessageTtlStatus msg.createdTime state.config.security.adminMessagesExpiry state.now = .ok

variable {u : Unit}

theorem exec_checkAdminTtl_eq_ok_iff {R : Type} {msg : Message R} : exec (checkAdminTtl state session msg) s =
    (.ok u, s') ↔ InReplayWindow state msg ∧ s = s' := by
  unfold InReplayWindow
  unfold checkAdminTtl
  cases adminMessageTtlStatus msg.createdTime state.config.security.adminMessagesExpiry state.now with
  | ok => simp [exec_pure]
  | expired ct => simp [exec_throw]
  | missing => simp [exec_throw]

variable {α : Type} {msgId : String} {op : StoreOp α}

theorem exec_storeCall_eq_ok_iff {a : α} :
    exec (storeCall session msgId op) s = (.ok a, s') ↔ op s = (.ok a, s') := by
  unfold storeCall
  rw [exec_mapError_eq_ok_iff, exec_step]

theorem storeCall_total (h : ∀ s, ∃ a s', op s = (.ok a, s')) : Total (storeCall session msgId op) := by
  intro s
  obtain ⟨a, s', hop⟩ := h s
  exact ⟨a, s', exec_storeCall_eq_ok_iff.2 hop⟩

theorem storeCall_readOnly (h : ∀ s, (op s).2 = s) : ReadOnly (storeCall session msgId op) := h

/-- The state with one more audit record. -/
def withAudit (state : SharedData) (session : Session) (targetDidHash : String) (action : AuditAction)
    (detail : String) (st : MemoryState) : MemoryState :=
  (auditLogRecord ⟨state.now, session.didHash, targetDidHash, action, detail⟩ st).2

/-- Everything in the store but the audit log. -/
def withoutAudit (st : MemoryState) : MemoryState := { st with auditLog := [] }

@[simp] theorem withoutAudit_withAudit (target : String) (action : AuditAction) (detail : String)
    (st : MemoryState) :
    withoutAudit (withAudit state session target action detail st) = withoutAudit st := rfl

theorem withoutAudit_foldl_withAudit (targets : List String) (action : AuditAction) (detail : String)
    (st : MemoryState) :
    withoutAudit (targets.foldl (fun st target => withAudit state session target action detail st) st) =
      withoutAudit st := by
  induction targets generalizing st with
  | nil => rfl
  | cons target rest ih =>
    rw [List.foldl_cons, ih, withoutAudit_withAudit]

variable {detail : String} {action : AuditAction}

theorem exec_recordAudit_eq_ok_iff {target : String} : exec (recordAudit state session target action detail) s =
    (.ok u, s') ↔ withAudit state session target action detail s = s' := by
  unfold recordAudit withAudit
  rw [exec_step]
  simp [auditLogRecord]

theorem recordAudit_total {target : String} : Total (recordAudit state session target action detail) :=
  fun _ => ⟨(), _, rfl⟩

theorem exec_recordAudits_eq_ok_iff {targets : List String} :
    exec (recordAudits state session action detail targets) s = (.ok u, s') ↔
    targets.foldl (fun st target => withAudit state session target action detail st) s = s' := by
  induction targets generalizing s with
  | nil => simp [recordAudits, exec_pure]
  | cons target rest ih =>
    simp only [recordAudits, exec_bind_eq_ok_iff, exec_recordAudit_eq_ok_iff, ih, List.foldl_cons]
    simp

/-! Rules for acceptance conditions. -/

section Rules

variable {τ α β : Type} {obs : MemoryState → τ} {G : Prop} {t : τ}

theorem meets_storeCall {msgId : String} {op : StoreOp α} {f : α → Handler β} {a : α}
    (hop : op s = (.ok a, s')) (hf : Meets obs (f a) s' G t) :
    Meets obs (storeCall session msgId op >>= f) s G t :=
  Meets.bind (exec_storeCall_eq_ok_iff.2 hop) hf

/-- A store call that succeeds, and then the rest. -/
theorem meets_step {op : StoreOp α} {f : α → Handler β} {a : α} (hop : op s = (.ok a, s'))
    (hf : Meets obs (f a) s' G t) : Meets obs (step op >>= f) s G t :=
  Meets.bind hop hf

variable {f : Unit → Handler α}

theorem meets_recordAudit {target detail : String} {action : AuditAction}
    (hf : Meets obs (f ()) (withAudit state session target action detail s) G t) :
    Meets obs (recordAudit state session target action detail >>= f) s G t :=
  Meets.bind (exec_recordAudit_eq_ok_iff.2 rfl) hf

theorem meets_recordAudit_pure (target detail : String) (action : AuditAction) (a : α) :
    Meets withoutAudit (do recordAudit state session target action detail; pure a) s True (withoutAudit s) :=
  meets_recordAudit (Meets.of_pure a _)

theorem meets_recordAudits_pure (targets : List String) (detail : String) (action : AuditAction) (a : α) :
    Meets withoutAudit (do recordAudits state session action detail targets; pure a) s True (withoutAudit s) := by
  have hpure : Meets withoutAudit (pure a : Handler α)
      (targets.foldl (fun st target => withAudit state session target action detail st) s) True
      (withoutAudit s) :=
    (Meets.of_pure a _).congr Iff.rfl fun _ => withoutAudit_foldl_withAudit targets action detail s
  exact Meets.bind ((exec_recordAudits_eq_ok_iff (u := ())).2 rfl) hpure

theorem meets_checkAdminTtl {R : Type} {msg : Message R} (hf : Meets obs (f ()) s G t) :
    Meets obs (checkAdminTtl state session msg >>= f) s (InReplayWindow state msg ∧ G) t :=
  Meets.check (fun _ => exec_checkAdminTtl_eq_ok_iff) hf

theorem meets_when_checkAdminTtl {R : Type} {msg : Message R} {x : Handler α} (hx : Meets obs x s G t) :
    Meets obs (do
      if session.isAdmin then
        checkAdminTtl state session msg
      x) s ((session.isAdmin = true → InReplayWindow state msg) ∧ G) t := by
  cases hadmin : session.isAdmin with
  | true => exact (meets_checkAdminTtl hx).congr (by simp) fun _ => rfl
  | false => exact hx.congr (by simp) fun _ => rfl

end Rules

end Specs

/-- A mediator with an ACL default of zero. -/
def plainState : SharedData where
  config :=
    { mediatorDid := "did:example:mediator"
      mediatorDidHash := "h:did:example:mediator"
      adminDid := "did:example:root"
      security := ⟨.explicitDeny, .fromU64 0, false, 3⟩
      limits := ⟨100, 100, 1000⟩ }
  now := 1000
  digest := fun did => "h:" ++ did

/-- `{x:?}` of an optional queue limit. -/
def debugLimit : Option ℤ → String
  | none => "None"
  | some n => s!"Some({n})"

/-- `{x:016x}` of an ACL word. -/
def hex16 (acls : BitVec 64) : String := acls.toHex

end AffinidiTdk.Mediator
