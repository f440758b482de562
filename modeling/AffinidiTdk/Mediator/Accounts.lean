/-
The account management protocol (`messages/protocols/mediator/accounts.rs`): one function for each
request, and `process`, which checks the replay window of admin sessions, decodes and dispatches.
-/
import AffinidiTdk.Mediator.Acls

namespace AffinidiTdk.Mediator

open Acl Store Fallible

/-- The requests of the protocol. -/
inductive MediatorAccountRequest
  | accountGet (didHash : String)
  | accountList (cursor limit : ℕ)
  | accountAdd (didHash : String) (acls : Option (BitVec 64))
  | accountRemove (didHash : String)
  | accountChangeType (didHash : String) (type : AccountType)
  | accountChangeQueueLimits (didHash : String) (sendQueueLimit receiveQueueLimit : Option ℤ)

namespace Accounts

section

variable (state : SharedData) (session : Session) (msgId : String) (senderKid : Option String)

def respond (body : ResponseBody) : ProcessMessageResponse :=
  ⟨"https://didcomm.org/mediator/1.0/account-management", msgId, session.did, state.config.mediatorDid, body⟩

def accountGet (didHash : String) : Handler ProcessMessageResponse := do
  if !checkPermissions session [didHash] state.config.security.blockRemoteAdminMsgs senderKid then
    throw (denied session msgId "Not authorized to view this account")
  let response ← storeCall session msgId (Store.accountGet didHash)
  return respond state session msgId (.account response)

def accountList (cursor limit : ℕ) : Handler ProcessMessageResponse := do
  if !session.isAdmin then
    throw (denied session msgId "Admin access required to list accounts")
  let response ← storeCall session msgId (Store.accountList cursor limit)
  return respond state session msgId (.accountList response)

/-- The ACLs of a new account: an admin may give them, everybody else gets the default. -/
def newAccountAcls (acls : Option (BitVec 64)) : MediatorACLSet :=
  if session.isAdmin then (acls.map MediatorACLSet.fromU64).getD state.config.security.globalAclDefault
  else state.config.security.globalAclDefault

def accountAdd (didHash : String) (acls : Option (BitVec 64)) : Handler ProcessMessageResponse := do
  if state.config.security.mediatorAclMode = .explicitAllow ∧ !session.isAdmin then
    throw (denied session msgId "Admin access required to add accounts in explicit-allow mode")
  let response ← storeCall session msgId
    (Store.accountAdd didHash (newAccountAcls state session acls) none)
  recordAudit state session didHash .accountAdd "account created"
  return respond state session msgId (.account (some response))

def accountRemove (didHash : String) : Handler ProcessMessageResponse := do
  if !checkPermissions session [didHash] state.config.security.blockRemoteAdminMsgs senderKid then
    throw (denied session msgId "Not authorized to remove this account")
  if state.config.mediatorDidHash = didHash then
    throw (removeProtected session msgId)
  if state.digest state.config.adminDid = didHash then
    throw (removeProtected session msgId)
  let response ← storeCall session msgId (Store.accountRemove didHash)
  recordAudit state session didHash .accountRemove "account removed"
  return respond state session msgId (.flag response)

/-- The plain change of type at the end of `AccountChangeType`. -/
def setAccountType (didHash : String) (type : AccountType) (current : Option Account) :
    Handler ProcessMessageResponse := do
  storeCall session msgId (accountSetRole didHash type)
  let currentType := (current.map fun account => account.type.display).getD "Unknown"
  recordAudit state session didHash .accountChangeType s!"type {currentType} -> {type.display}"
  return respond state session msgId (.flag true)

/-- `AccountChangeType` for an account that is there: the shifts to and from an admin role. -/
def changeCurrentType (didHash : String) (type : AccountType) (current : Account) :
    Handler ProcessMessageResponse :=
  if current.type = .rootAdmin ∧ session.accountType ≠ .rootAdmin then
    throw (denied session msgId "RootAdmin access required to modify RootAdmin accounts")
  else if current.type = type then
    pure (respond state session msgId (.flag true))
  else if current.type.isAdmin ∧ type.isAdmin then
    setAccountType state session msgId didHash type (some current)
  else if current.type.isAdmin ∧ !type.isAdmin then do
    let _ ← step (stripAdminAccounts [didHash])
    setAccountType state session msgId didHash type (some current)
  else if !current.type.isAdmin ∧ type.isAdmin then do
    step (setupAdminAccount didHash type (.fromU64 current.acls))
    recordAudit state session didHash .accountChangeType s!"type -> {type.display}"
    return respond state session msgId (.flag true)
  else setAccountType state session msgId didHash type (some current)

def accountChangeType (didHash : String) (type : AccountType) : Handler ProcessMessageResponse := do
  if !(← step (checkAdminAccount session.didHash)) then
    throw (denied session msgId "Admin access required to change account types")
  if type = .rootAdmin ∧ session.accountType ≠ .rootAdmin then
    throw (denied session msgId "RootAdmin access required to assign RootAdmin type")
  match ← step (Store.accountGet didHash) with
  | none => setAccountType state session msgId didHash type none
  | some current => changeCurrentType state session msgId didHash type current

/-- A limit a standard account asks for: nothing unless it self-manages it, the two sentinels as
they are, everything else capped at the hard limit. -/
def gateLimit (selfManaged : Bool) (hard : ℤ) (requested : Option ℤ) : Option ℤ :=
  if selfManaged then
    match requested with
    | some limit => if limit = -1 ∨ limit = -2 then some limit else if limit > hard then some hard else some limit
    | none => none
  else none

/-- The limits to store: what a standard account may set, or what an admin asks for. -/
def allowedLimits (sendQueueLimit receiveQueueLimit : Option ℤ) : Option ℤ × Option ℤ :=
  if session.accountType = .standard then
    (gateLimit session.acls.getSelfManageSendQueueLimit state.config.limits.queuedSendMessagesHard sendQueueLimit,
     gateLimit session.acls.getSelfManageReceiveQueueLimit state.config.limits.queuedReceiveMessagesHard
      receiveQueueLimit)
  else (sendQueueLimit, receiveQueueLimit)

def accountChangeQueueLimits (didHash : String) (sendQueueLimit receiveQueueLimit : Option ℤ) :
    Handler ProcessMessageResponse := do
  if !checkPermissions session [didHash] state.config.security.blockRemoteAdminMsgs senderKid then
    throw (denied session msgId "Not authorized to change queue limits for this account")
  let (sendQueueLimit, receiveQueueLimit) := allowedLimits state session sendQueueLimit receiveQueueLimit
  storeCall session msgId (Store.accountChangeQueueLimits didHash sendQueueLimit receiveQueueLimit)
  recordAudit state session didHash .accountChangeQueueLimits
    s!"send={debugLimit sendQueueLimit} receive={debugLimit receiveQueueLimit}"
  return respond state session msgId (.queueLimits sendQueueLimit receiveQueueLimit)

def dispatch : MediatorAccountRequest → Handler ProcessMessageResponse
  | .accountGet didHash => accountGet state session msgId senderKid didHash
  | .accountList cursor limit => accountList state session msgId cursor limit
  | .accountAdd didHash acls => accountAdd state session msgId didHash acls
  | .accountRemove didHash => accountRemove state session msgId senderKid didHash
  | .accountChangeType didHash type => accountChangeType state session msgId didHash type
  | .accountChangeQueueLimits didHash sendQueueLimit receiveQueueLimit =>
    accountChangeQueueLimits state session msgId senderKid didHash sendQueueLimit receiveQueueLimit

end

def process (msg : Message MediatorAccountRequest) (state : SharedData) (session : Session)
    (metadata : UnpackMetadata) : Handler ProcessMessageResponse := do
  if session.isAdmin then
    checkAdminTtl state session msg
  match msg.body with
  | none => throw (parseError 81 "protocol.mediator.accounts.parse" session msg.id)
  | some request => dispatch state session msg.id metadata.senderKid request

/-! ## What is accepted, and what it leaves -/

section Specs

variable {state : SharedData} {session : Session} {msgId : String} {senderKid : Option String}
  {s : MemoryState}

theorem accountGet_meets (didHash : String) :
    Meets withoutAudit (accountGet state session msgId senderKid didHash) s
      (checkPermissions session [didHash] state.config.security.blockRemoteAdminMsgs senderKid = true)
      (withoutAudit s) := by
  unfold accountGet
  apply Meets.congr
  · exact Meets.guard (meets_storeCall rfl (Meets.of_pure _ s))
  · simp
  · exact fun _ => rfl

theorem accountList_meets (cursor limit : ℕ) :
    Meets withoutAudit (accountList state session msgId cursor limit) s (session.isAdmin = true)
      (withoutAudit s) := by
  unfold accountList
  apply Meets.congr
  · exact Meets.guard (meets_storeCall rfl (Meets.of_pure _ s))
  · simp
  · exact fun _ => rfl

theorem accountAdd_meets (didHash : String) (acls : Option (BitVec 64)) :
    Meets withoutAudit (accountAdd state session msgId didHash acls) s
      (state.config.security.mediatorAclMode = .explicitAllow → session.isAdmin = true)
      (withoutAudit (Store.accountAdd didHash (newAccountAcls state session acls) none s).2) := by
  unfold accountAdd
  apply Meets.congr
  · exact Meets.guard (meets_storeCall rfl (meets_recordAudit_pure ..))
  · simp
  · exact fun _ => rfl

theorem accountRemove_meets (didHash : String) :
    Meets withoutAudit (accountRemove state session msgId senderKid didHash) s
    (checkPermissions session [didHash] state.config.security.blockRemoteAdminMsgs senderKid = true ∧
    state.config.mediatorDidHash ≠ didHash ∧ state.digest state.config.adminDid ≠ didHash ∧ Removable s didHash)
    (withoutAudit (Store.accountRemove didHash s).2) := by
  have hstore : Meets withoutAudit
      (do
        let response ← storeCall session msgId (Store.accountRemove didHash)
        recordAudit state session didHash .accountRemove "account removed"
        return respond state session msgId (.flag response)) s (Removable s didHash)
      (withoutAudit (Store.accountRemove didHash s).2) := by
    by_cases hrem : Removable s didHash
    · apply Meets.congr
      · exact meets_storeCall (accountRemove_of_removable hrem)
          (meets_recordAudit_pure ..)
      · simp [hrem]
      · exact fun _ => rfl
    · constructor
      · intro r s' h
        obtain ⟨removed, s₁, h₁, -⟩ := exec_bind_eq_ok_iff.1 h
        exact absurd (removable_of_accountRemove (exec_storeCall_eq_ok_iff.1 h₁)) hrem
      · exact fun h => absurd h hrem
  unfold accountRemove
  apply Meets.congr
  · exact Meets.guard (Meets.guard (Meets.guard hstore))
  · simp
  · exact fun _ => rfl

theorem setAccountType_meets (didHash : String) (type : AccountType) (current : Option Account) :
    Meets withoutAudit (setAccountType state session msgId didHash type current) s True
      (withoutAudit (accountSetRole didHash type s).2) :=
  meets_storeCall rfl (meets_recordAudit_pure ..)

/-- Whatever the branch, a change of type sets the role. -/
theorem changeType_meets {α : Type} {did : String} {type : AccountType} {record : AccountRecord}
    (hrec : s.accounts did = some record) {e : MediatorError} {same : α} {acls : MediatorACLSet} {set after : Handler α}
    (hset : ∀ s, Meets withoutAudit set s True (withoutAudit (accountSetRole did type s).2))
    (hafter : Meets withoutAudit after (accountSetRole did type s).2 True
      (withoutAudit (accountSetRole did type s).2)) :
    Meets withoutAudit
      (if record.role = .rootAdmin ∧ session.accountType ≠ .rootAdmin then throw e
        else if record.role = type then pure same
        else if record.role.isAdmin ∧ type.isAdmin then set
        else if record.role.isAdmin ∧ !type.isAdmin then do
          let _ ← step (stripAdminAccounts [did])
          set
        else if !record.role.isAdmin ∧ type.isAdmin then do
          step (setupAdminAccount did type acls)
          after
        else set) s
      (record.role = .rootAdmin → session.accountType = .rootAdmin) (withoutAudit (changeRole s did type)) := by
  unfold changeRole
  simp only [hrec, Option.map_some, Option.some.injEq]
  by_cases hroot : record.role = .rootAdmin ∧ session.accountType ≠ .rootAdmin
  · rw [if_pos hroot]
    exact (Meets.of_throw _ s (withoutAudit s)).congr (by simpa using hroot) fun h => h.elim
  · rw [if_neg hroot]
    have hok : True ↔ (record.role = .rootAdmin → session.accountType = .rootAdmin) := by
      simpa using hroot
    by_cases hsame : record.role = type
    · rw [if_pos hsame, if_pos hsame]
      exact (Meets.of_pure _ s).congr hok fun _ => rfl
    · rw [if_neg hsame, if_neg hsame]
      cases hold : record.role.isAdmin <;> cases hnew : type.isAdmin
      · exact (hset s).congr hok fun _ => rfl
      · exact (meets_step (setupAdminAccount_eq_setRole s did hrec hnew acls) hafter).congr hok fun _ => rfl
      · have hstrip : stripAdminAccounts [did] s = (.ok 1, (stripAdminAccounts [did] s).2) := rfl
        refine (meets_step hstrip (hset _)).congr hok fun _ => ?_
        rw [accountSetRole_stripAdminAccounts]
      · exact (hset s).congr hok fun _ => rfl

theorem changeCurrentType_meets {didHash : String} (type : AccountType) {record : AccountRecord}
    (hrec : s.accounts didHash = some record) {current : Account} (hcur : current.type = record.role) :
    Meets withoutAudit (changeCurrentType state session msgId didHash type current) s
      (record.role = .rootAdmin → session.accountType = .rootAdmin)
      (withoutAudit (changeRole s didHash type)) := by
  unfold changeCurrentType
  simp only [hcur]
  exact changeType_meets hrec (fun _ => setAccountType_meets ..) (meets_recordAudit_pure ..)

theorem accountChangeType_meets (didHash : String) (type : AccountType) :
    Meets withoutAudit (accountChangeType state session msgId didHash type) s
      (StoredAdmin s session.didHash ∧ (type = .rootAdmin → session.accountType = .rootAdmin) ∧
        ((s.accounts didHash).map AccountRecord.role = some .rootAdmin → session.accountType = .rootAdmin))
      (withoutAudit (changeRole s didHash type)) := by
  have hmatch : Meets withoutAudit
      (match (s.accounts didHash).map fun record =>
          record.intoAccount didHash (((s.accessLists didHash).map List.length).getD 0) with
        | none => setAccountType state session msgId didHash type none
        | some current => changeCurrentType state session msgId didHash type current) s
      ((s.accounts didHash).map AccountRecord.role = some .rootAdmin → session.accountType = .rootAdmin)
      (withoutAudit (changeRole s didHash type)) := by
    cases hrec : s.accounts didHash with
    | none =>
      refine (setAccountType_meets didHash type none).congr (by simp) fun _ => ?_
      unfold changeRole
      rw [hrec, if_neg (by simp)]
    | some record =>
      exact (changeCurrentType_meets type hrec rfl).congr (by simp) fun _ => rfl
  unfold accountChangeType
  apply Meets.congr
  · exact meets_step (checkAdminAccount_eq s session.didHash) (Meets.guard (Meets.guard (meets_step rfl hmatch)))
  · simp
  · exact fun _ => rfl

theorem accountChangeQueueLimits_meets (didHash : String) (sendQueueLimit receiveQueueLimit : Option ℤ) :
    Meets withoutAudit
      (accountChangeQueueLimits state session msgId senderKid didHash sendQueueLimit receiveQueueLimit) s
      (checkPermissions session [didHash] state.config.security.blockRemoteAdminMsgs senderKid = true)
      (withoutAudit (Store.accountChangeQueueLimits didHash
        (allowedLimits state session sendQueueLimit receiveQueueLimit).1
        (allowedLimits state session sendQueueLimit receiveQueueLimit).2 s).2) := by
  unfold accountChangeQueueLimits
  apply Meets.congr
  · exact Meets.guard (meets_storeCall rfl (meets_recordAudit_pure ..))
  · simp
  · exact fun _ => rfl

/-- The condition under which a request is accepted. -/
def Accepts (state : SharedData) (session : Session) (senderKid : Option String) (s : MemoryState) :
    MediatorAccountRequest → Prop
  | .accountGet didHash | .accountChangeQueueLimits didHash _ _ =>
    checkPermissions session [didHash] state.config.security.blockRemoteAdminMsgs senderKid = true
  | .accountList _ _ => session.isAdmin = true
  | .accountAdd _ _ => state.config.security.mediatorAclMode = .explicitAllow → session.isAdmin = true
  | .accountRemove didHash =>
    checkPermissions session [didHash] state.config.security.blockRemoteAdminMsgs senderKid = true ∧
      state.config.mediatorDidHash ≠ didHash ∧ state.digest state.config.adminDid ≠ didHash ∧ Removable s didHash
  | .accountChangeType didHash type =>
    StoredAdmin s session.didHash ∧ (type = .rootAdmin → session.accountType = .rootAdmin) ∧
      ((s.accounts didHash).map AccountRecord.role = some .rootAdmin → session.accountType = .rootAdmin)

/-- What an accepted request does to the store, the audit log aside. -/
def effect (state : SharedData) (session : Session) (s : MemoryState) : MediatorAccountRequest → MemoryState
  | .accountGet _ | .accountList _ _ => s
  | .accountAdd didHash acls => (Store.accountAdd didHash (newAccountAcls state session acls) none s).2
  | .accountRemove didHash => (Store.accountRemove didHash s).2
  | .accountChangeType didHash type => changeRole s didHash type
  | .accountChangeQueueLimits didHash sendQueueLimit receiveQueueLimit =>
    let limits := allowedLimits state session sendQueueLimit receiveQueueLimit
    (Store.accountChangeQueueLimits didHash limits.1 limits.2 s).2

theorem dispatch_meets (request : MediatorAccountRequest) :
    Meets withoutAudit (dispatch state session msgId senderKid request) s
      (Accepts state session senderKid s request) (withoutAudit (effect state session s request)) := by
  cases request with
  | accountGet didHash => exact accountGet_meets didHash
  | accountList cursor limit => exact accountList_meets cursor limit
  | accountAdd didHash acls => exact accountAdd_meets didHash acls
  | accountRemove didHash => exact accountRemove_meets didHash
  | accountChangeType didHash type => exact accountChangeType_meets didHash type
  | accountChangeQueueLimits didHash send receive => exact accountChangeQueueLimits_meets didHash send receive

variable {msg : Message MediatorAccountRequest} {metadata : UnpackMetadata}

theorem process_meets {request : MediatorAccountRequest} (hbody : msg.body = some request) :
    Meets withoutAudit (process msg state session metadata) s
    ((session.isAdmin = true → InReplayWindow state msg) ∧ Accepts state session metadata.senderKid s request)
    (withoutAudit (effect state session s request)) := by
  unfold process
  rw [hbody]
  exact meets_when_checkAdminTtl (dispatch_meets request)

theorem body_of_process {response : ProcessMessageResponse} {s' : MemoryState}
    (h : exec (process msg state session metadata) s = (.ok response, s')) :
    ∃ request, msg.body = some request := by
  cases hbody : msg.body with
  | some request => exact ⟨request, rfl⟩
  | none =>
    unfold process at h
    rw [hbody] at h
    obtain ⟨s₁, -, -, hthrow⟩ := exec_when_eq_ok_iff.1 h
    exact (exec_throw_eq_ok_iff.1 hthrow).elim

end Specs

end Accounts

end AffinidiTdk.Mediator
