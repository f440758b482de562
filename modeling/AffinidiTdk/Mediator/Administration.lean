/-
The administration protocol (`messages/protocols/mediator/administration.rs`): `process` checks the
replay window and the requester's stored role for every request, then decodes and dispatches.
-/
import AffinidiTdk.Mediator.Shared
import AffinidiTdk.Store.Frame

namespace AffinidiTdk.Mediator

open Acl Store Fallible

/-- The requests of the protocol. -/
inductive MediatorAdminRequest
  | adminAdd (dids : List String)
  | adminStrip (dids : List String)
  | adminList (cursor limit : ℕ)
  | auditLogList (cursor limit : ℕ)
  | configuration

namespace Administration

section

variable (state : SharedData) (session : Session) (msgId : String)

def respond (body : ResponseBody) : ProcessMessageResponse :=
  ⟨"https://didcomm.org/mediator/1.0/admin-management", msgId, session.did, state.config.mediatorDid, body⟩

def adminAdd (dids : List String) : Handler ProcessMessageResponse := do
  let response ← storeCall session msgId (addAdminAccounts dids state.config.security.globalAclDefault)
  recordAudits state session .adminAdd "promoted to admin" dids
  return respond state session msgId (.count response)

/-- The accounts of a strip request that may be stripped: neither the configured root admin nor the
mediator itself. -/
def strippable (dids : List String) : List String :=
  dids.filter fun did => !(did = state.digest state.config.adminDid || did = state.config.mediatorDidHash)

def adminStrip (dids : List String) : Handler ProcessMessageResponse := do
  let targets := strippable state dids
  if targets.isEmpty then
    throw (.problem 84 session.sessionId (some msgId) .warning .message
      "protocol.mediator.administration.strip.missing" "Missing admin DID to strip admin type from" [] 400)
  let response ← storeCall session msgId (stripAdminAccounts targets)
  recordAudits state session .adminStrip "admin status stripped" targets
  return respond state session msgId (.count response)

def adminList (cursor limit : ℕ) : Handler ProcessMessageResponse := do
  let response ← storeCall session msgId (listAdminAccounts cursor limit)
  return respond state session msgId (.adminList response)

def auditLogList (cursor limit : ℕ) : Handler ProcessMessageResponse := do
  let response ← storeCall session msgId (Store.auditLogList cursor limit)
  return respond state session msgId (.auditLog response)

def dispatch : MediatorAdminRequest → Handler ProcessMessageResponse
  | .adminAdd dids => adminAdd state session msgId dids
  | .adminStrip dids => adminStrip state session msgId dids
  | .adminList cursor limit => adminList state session msgId cursor limit
  | .auditLogList cursor limit => auditLogList state session msgId cursor limit
  | .configuration => pure (respond state session msgId (.configuration state.config))

end

def process (msg : Message MediatorAdminRequest) (state : SharedData) (session : Session)
    (metadata : UnpackMetadata) : Handler ProcessMessageResponse := do
  checkAdminTtl state session msg
  let isAdmin ← step (checkAdminAccount session.didHash)
  if !isAdmin || (state.config.security.blockRemoteAdminMsgs && !checkAdminSignature session metadata.senderKid) then
    throw (denied session msg.id "Admin access required for administration operations")
  match msg.body with
  | none => throw (parseError 83 "protocol.mediator.administration.parse" session msg.id)
  | some request => dispatch state session msg.id request

/-! ## What is accepted, and what it leaves -/

section Specs

variable {state : SharedData} {session : Session} {msgId : String} {s : MemoryState}

/-- The requester is a stored admin and, where remote requests are blocked, signed the message. -/
def Authorized (state : SharedData) (session : Session) (senderKid : Option String) (s : MemoryState) : Prop :=
  StoredAdmin s session.didHash ∧
    (state.config.security.blockRemoteAdminMsgs = true → checkAdminSignature session senderKid = true)

/-- What a request asks for beyond authorization: something is left to strip. -/
def Accepts (state : SharedData) : MediatorAdminRequest → Prop
  | .adminStrip dids => strippable state dids ≠ []
  | _ => True

/-- What an accepted request does to the store, the audit log aside. -/
def effect (state : SharedData) (s : MemoryState) : MediatorAdminRequest → MemoryState
  | .adminAdd dids => (addAdminAccounts dids state.config.security.globalAclDefault s).2
  | .adminStrip dids => (stripAdminAccounts (strippable state dids) s).2
  | .adminList _ _ | .auditLogList _ _ | .configuration => s

theorem dispatch_meets (request : MediatorAdminRequest) :
    Meets withoutAudit (dispatch state session msgId request) s (Accepts state request)
      (withoutAudit (effect state s request)) := by
  cases request with
  | adminAdd dids =>
    exact meets_storeCall rfl (meets_recordAudits_pure ..)
  | adminStrip dids =>
    apply Meets.congr
    · exact Meets.guard (meets_storeCall rfl (meets_recordAudits_pure ..))
    · simp [Accepts]
    · exact fun _ => rfl
  | adminList cursor limit | auditLogList cursor limit => exact meets_storeCall rfl (Meets.of_pure _ _)
  | configuration => exact Meets.of_pure _ _

variable {msg : Message MediatorAdminRequest} {metadata : UnpackMetadata}

theorem process_meets {request : MediatorAdminRequest} (hbody : msg.body = some request) :
    Meets withoutAudit (process msg state session metadata) s
    (InReplayWindow state msg ∧ Authorized state session metadata.senderKid s ∧ Accepts state request)
    (withoutAudit (effect state s request)) := by
  unfold process
  rw [hbody]
  apply Meets.congr
  · exact meets_checkAdminTtl (meets_step (checkAdminAccount_eq s session.didHash)
      (Meets.guard (dispatch_meets request)))
  · simp [Authorized]
  · exact fun _ => rfl

theorem body_of_process {response : ProcessMessageResponse} {s' : MemoryState}
    (h : exec (process msg state session metadata) s = (.ok response, s')) :
    ∃ request, msg.body = some request := by
  cases hbody : msg.body with
  | some request => exact ⟨request, rfl⟩
  | none =>
    unfold process at h
    rw [hbody] at h
    obtain ⟨-, s₁, -, h⟩ := exec_bind_eq_ok_iff.1 h
    obtain ⟨isAdmin, s₂, -, h⟩ := exec_bind_eq_ok_iff.1 h
    obtain ⟨-, h⟩ := exec_guard_eq_ok_iff.1 h
    exact (exec_throw_eq_ok_iff.1 h).elim

end Specs

end Administration

end AffinidiTdk.Mediator
