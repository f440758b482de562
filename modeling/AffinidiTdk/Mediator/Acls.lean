/-
The ACL management protocol (`messages/protocols/mediator/acls.rs`): one function for each request,
and `process`, which checks the replay window of admin sessions, decodes and dispatches.
-/
import AffinidiTdk.Mediator.Shared
import AffinidiTdk.Store.Frame

namespace AffinidiTdk.Mediator

open Acl Store Fallible

/-- The requests of the protocol. -/
inductive MediatorACLRequest
  | getACL (dids : List String)
  | setACL (didHash : String) (acls : BitVec 64)
  | accessListList (didHash : String) (cursor : Option ℕ)
  | accessListGet (didHash : String) (hashes : List String)
  | accessListAdd (didHash : String) (hashes : List String)
  | accessListRemove (didHash : String) (hashes : List String)
  | accessListClear (didHash : String)

namespace Acls

section

variable (state : SharedData) (session : Session) (msgId : String) (senderKid : Option String)

def respond (body : ResponseBody) : ProcessMessageResponse :=
  ⟨"https://affinidi.com/messaging/global-acl-management", msgId, session.did, state.config.mediatorDid, body⟩

/-- The session is an admin, or acts on its own account; the comment names what it wanted. -/
def requirePermissions (dids : List String) (comment : String) : Handler Unit :=
  if !checkPermissions session dids state.config.security.blockRemoteAdminMsgs senderKid then
    throw (denied session msgId comment)
  else pure ()

/-- A standard account writes its access list only where it self-manages it. -/
def requireSelfManageList : Handler Unit :=
  if !session.acls.getSelfManageList && session.accountType = .standard then
    throw (denied session msgId "Self-manage access list is not enabled for this account")
  else pure ()

def requireBatch (hashes : List String) : Handler Unit :=
  if hashes.isEmpty || hashes.length > 100 then
    throw (.problem 93 session.sessionId (some msgId) .error .protocol "protocol.mediator.access_list.limit"
      "Access list batch must contain 1-100 entries" [] 400)
  else pure ()

def getACL (dids : List String) : Handler ProcessMessageResponse := do
  requirePermissions state session msgId senderKid dids "Not authorized to view ACLs for this DID"
  let response ← storeCall session msgId (getDidAcls dids state.config.security.mediatorAclMode)
  return respond state session msgId (.aclList response)

/-- The numbered placeholders of a list of errors. -/
def placements (errors : List String) : String :=
  String.join ((List.range errors.length).map fun i => s!" (\x7b{i + 1}\x7d)")

/-- The check made on a session that is no admin: only self-managed flags move. -/
def checkSelfChange (didHash : String) (acls : BitVec 64) : Handler Unit := do
  let stored ← storeCall session msgId (getDidAcl didHash)
  let currentAcls := stored.getD state.config.security.globalAclDefault
  match aclChangeOk currentAcls (.fromU64 acls) with
  | none => pure ()
  | some errors =>
    throw (.problemWithLog 80 session.sessionId (some msgId) .warning .message "protocol.acls.change.denied"
      ("A non-admin account tried to change ACL Flags but self-change is not allowed:" ++ placements errors)
      errors 403 "A non-admin account tried to change ACL Flags but self-change is not allowed")

def setACL (didHash : String) (acls : BitVec 64) : Handler ProcessMessageResponse := do
  requirePermissions state session msgId senderKid [didHash] "Not authorized to modify ACLs for this DID"
  if !session.isAdmin then
    checkSelfChange state session msgId didHash acls
  let response ← storeCall session msgId (setDidAcl didHash (.fromU64 acls))
  recordAudit state session didHash .setAcl ("acls=0x" ++ hex16 acls)
  return respond state session msgId (.acls response)

def accessListList (didHash : String) (cursor : Option ℕ) : Handler ProcessMessageResponse := do
  requirePermissions state session msgId senderKid [didHash] "Not authorized to view access list for this DID"
  let response ← storeCall session msgId (Store.accessListList didHash (cursor.getD 0))
  return respond state session msgId (.accessListPage response)

def accessListAdd (didHash : String) (hashes : List String) : Handler ProcessMessageResponse := do
  requirePermissions state session msgId senderKid [didHash] "Not authorized to modify access list for this DID"
  requireSelfManageList session msgId
  requireBatch session msgId hashes
  let response ← storeCall session msgId
    (Store.accessListAdd state.config.limits.accessListLimit didHash hashes)
  recordAudit state session didHash .accessListAdd s!"added {hashes.length} hash(es)"
  return respond state session msgId (.accessListAdded response)

def accessListRemove (didHash : String) (hashes : List String) : Handler ProcessMessageResponse := do
  requirePermissions state session msgId senderKid [didHash] "Not authorized to modify access list for this DID"
  requireSelfManageList session msgId
  requireBatch session msgId hashes
  let response ← storeCall session msgId (Store.accessListRemove didHash hashes)
  recordAudit state session didHash .accessListRemove s!"removed {response} of {hashes.length} requested"
  return respond state session msgId (.count response)

def accessListClear (didHash : String) : Handler ProcessMessageResponse := do
  requirePermissions state session msgId senderKid [didHash] "Not authorized to clear access list for this DID"
  requireSelfManageList session msgId
  storeCall session msgId (Store.accessListClear didHash)
  recordAudit state session didHash .accessListClear "cleared access list"
  return respond state session msgId .unit

def accessListGet (didHash : String) (hashes : List String) : Handler ProcessMessageResponse := do
  requirePermissions state session msgId senderKid [didHash] "Not authorized to view access list for this DID"
  let response ← storeCall session msgId (Store.accessListGet didHash hashes)
  return respond state session msgId (.didHashes response)

def dispatch : MediatorACLRequest → Handler ProcessMessageResponse
  | .getACL dids => getACL state session msgId senderKid dids
  | .setACL didHash acls => setACL state session msgId senderKid didHash acls
  | .accessListList didHash cursor => accessListList state session msgId senderKid didHash cursor
  | .accessListGet didHash hashes => accessListGet state session msgId senderKid didHash hashes
  | .accessListAdd didHash hashes => accessListAdd state session msgId senderKid didHash hashes
  | .accessListRemove didHash hashes => accessListRemove state session msgId senderKid didHash hashes
  | .accessListClear didHash => accessListClear state session msgId senderKid didHash

end

def process (msg : Message MediatorACLRequest) (state : SharedData) (session : Session)
    (metadata : UnpackMetadata) : Handler ProcessMessageResponse := do
  if session.isAdmin then
    checkAdminTtl state session msg
  match msg.body with
  | none => throw (parseError 82 "protocol.mediator.acls.parse" session msg.id)
  | some request => dispatch state session msg.id metadata.senderKid request

/-! ## What is accepted, and what it leaves -/

section Specs

variable {state : SharedData} {session : Session} {msgId : String} {senderKid : Option String}
  {s s' : MemoryState}

theorem exec_requirePermissions_eq_ok_iff {dids : List String} {comment : String} {u : Unit} :
    exec (requirePermissions state session msgId senderKid dids comment) s = (.ok u, s') ↔
      checkPermissions session dids state.config.security.blockRemoteAdminMsgs senderKid = true ∧ s = s' := by
  unfold requirePermissions
  rw [exec_ite_throw_eq_ok_iff]
  simp [exec_pure]

/-- The ACL word a SetACL request is judged against. -/
def currentWord (state : SharedData) (didHash : String) (st : MemoryState) : BitVec 64 :=
  ((st.accounts didHash).map fun record => record.acls.toU64).getD state.config.security.globalAclDefault.toU64

theorem exec_checkSelfChange_eq_ok_iff {didHash : String} {acls : BitVec 64} {u : Unit} :
    exec (checkSelfChange state session msgId didHash acls) s = (.ok u, s') ↔
      aclChangeOk (.fromU64 (currentWord state didHash s)) (.fromU64 acls) = none ∧ s = s' := by
  have hcur : ((s.accounts didHash).map AccountRecord.acls).getD state.config.security.globalAclDefault =
      .fromU64 (currentWord state didHash s) := by
    unfold currentWord
    cases s.accounts didHash <;> rfl
  unfold checkSelfChange
  rw [exec_bind_eq_ok_iff]
  simp only [exec_storeCall_eq_ok_iff, getDidAcl, Prod.mk.injEq, Except.ok.injEq]
  constructor
  · rintro ⟨_, _, ⟨rfl, rfl⟩, h⟩
    rw [hcur] at h
    cases hok : aclChangeOk (.fromU64 (currentWord state didHash s)) (.fromU64 acls) with
    | none =>
      rw [hok] at h
      exact ⟨rfl, (exec_pure_eq_ok_iff.1 h).2⟩
    | some errors =>
      rw [hok] at h
      exact (exec_throw_eq_ok_iff.1 h).elim
  · rintro ⟨hok, rfl⟩
    refine ⟨_, _, ⟨rfl, rfl⟩, ?_⟩
    rw [hcur, hok]
    rfl

theorem exec_requireSelfManageList_eq_ok_iff {u : Unit} :
    exec (requireSelfManageList session msgId) s = (.ok u, s') ↔
      (session.accountType = .standard → session.acls.getSelfManageList = true) ∧ s = s' := by
  unfold requireSelfManageList
  rw [exec_ite_throw_eq_ok_iff]
  cases session.acls.getSelfManageList <;> simp [exec_pure]

/-- A batch of one to a hundred entries. -/
def BatchOk (hashes : List String) : Prop := hashes ≠ [] ∧ hashes.length ≤ 100

theorem exec_requireBatch_eq_ok_iff {hashes : List String} {u : Unit} :
    exec (requireBatch session msgId hashes) s = (.ok u, s') ↔ BatchOk hashes ∧ s = s' := by
  unfold requireBatch BatchOk
  rw [exec_ite_throw_eq_ok_iff]
  simp [exec_pure]

section Rules

variable {α τ : Type} {obs : MemoryState → τ} {f : Unit → Handler α} {G : Prop} {t : τ}

theorem meets_requirePermissions {dids : List String} {comment : String} (hf : Meets obs (f ()) s G t) :
    Meets obs (requirePermissions state session msgId senderKid dids comment >>= f) s
      (checkPermissions session dids state.config.security.blockRemoteAdminMsgs senderKid = true ∧ G) t :=
  Meets.check (fun _ => exec_requirePermissions_eq_ok_iff) hf

theorem meets_requireSelfManageList (hf : Meets obs (f ()) s G t) :
    Meets obs (requireSelfManageList session msgId >>= f) s
      ((session.accountType = .standard → session.acls.getSelfManageList = true) ∧ G) t :=
  Meets.check (fun _ => exec_requireSelfManageList_eq_ok_iff) hf

theorem meets_requireBatch {hashes : List String} (hf : Meets obs (f ()) s G t) :
    Meets obs (requireBatch session msgId hashes >>= f) s (BatchOk hashes ∧ G) t :=
  Meets.check (fun _ => exec_requireBatch_eq_ok_iff) hf

end Rules

/-- The condition under which a request is accepted. -/
def Accepts (state : SharedData) (session : Session) (senderKid : Option String) (s : MemoryState) :
    MediatorACLRequest → Prop
  | .getACL dids =>
    checkPermissions session dids state.config.security.blockRemoteAdminMsgs senderKid = true ∧ dids.length ≤ 100
  | .setACL didHash acls =>
    checkPermissions session [didHash] state.config.security.blockRemoteAdminMsgs senderKid = true ∧
      (session.isAdmin = false → aclChangeOk (.fromU64 (currentWord state didHash s)) (.fromU64 acls) = none)
  | .accessListList didHash _ | .accessListGet didHash _ =>
    checkPermissions session [didHash] state.config.security.blockRemoteAdminMsgs senderKid = true
  | .accessListAdd didHash hashes | .accessListRemove didHash hashes =>
    checkPermissions session [didHash] state.config.security.blockRemoteAdminMsgs senderKid = true ∧
      (session.accountType = .standard → session.acls.getSelfManageList = true) ∧ BatchOk hashes
  | .accessListClear didHash =>
    checkPermissions session [didHash] state.config.security.blockRemoteAdminMsgs senderKid = true ∧
      (session.accountType = .standard → session.acls.getSelfManageList = true)

/-- What an accepted request does to the store, the audit log aside. -/
def effect (state : SharedData) (s : MemoryState) : MediatorACLRequest → MemoryState
  | .setACL didHash acls => (setDidAcl didHash (.fromU64 acls) s).2
  | .accessListAdd didHash hashes => (Store.accessListAdd state.config.limits.accessListLimit didHash hashes s).2
  | .accessListRemove didHash hashes => (Store.accessListRemove didHash hashes s).2
  | .accessListClear didHash => (Store.accessListClear didHash s).2
  | .getACL _ | .accessListList _ _ | .accessListGet _ _ => s

theorem setACL_meets (didHash : String) (acls : BitVec 64) :
    Meets withoutAudit (setACL state session msgId senderKid didHash acls) s
      (Accepts state session senderKid s (.setACL didHash acls))
      (withoutAudit (effect state s (.setACL didHash acls))) := by
  have hwrite : Meets withoutAudit
      (do
        let response ← storeCall session msgId (setDidAcl didHash (.fromU64 acls))
        recordAudit state session didHash .setAcl ("acls=0x" ++ hex16 acls)
        return respond state session msgId (.acls response)) s True
      (withoutAudit (effect state s (.setACL didHash acls))) :=
    meets_storeCall rfl (meets_recordAudit_pure ..)
  unfold setACL Accepts
  refine meets_requirePermissions ?_
  cases hadmin : session.isAdmin with
  | true => exact hwrite.congr (by simp) fun _ => rfl
  | false =>
    exact (Meets.check (fun _ => exec_checkSelfChange_eq_ok_iff) hwrite).congr (by simp) fun _ => rfl

theorem getACL_meets (dids : List String) :
    Meets withoutAudit (getACL state session msgId senderKid dids) s
      (Accepts state session senderKid s (.getACL dids)) (withoutAudit s) := by
  unfold getACL Accepts
  refine meets_requirePermissions ?_
  by_cases hlen : dids.length ≤ 100
  · have hget : getDidAcls dids state.config.security.mediatorAclMode s =
        (.ok ⟨dids.filterMap fun did => (s.accounts did).map fun record => ⟨did, record.acls⟩,
          state.config.security.mediatorAclMode⟩, s) := by
      unfold getDidAcls
      rw [if_neg (by omega)]
    apply Meets.congr
    · exact meets_storeCall hget (Meets.of_pure _ s)
    · simp [hlen]
    · exact fun _ => rfl
  · constructor
    · intro response s' h
      obtain ⟨_, _, h, -⟩ := exec_bind_eq_ok_iff.1 h
      rw [exec_storeCall_eq_ok_iff, getDidAcls, if_pos (by omega)] at h
      cases h
    · exact fun h => absurd h hlen

theorem dispatch_meets (request : MediatorACLRequest) :
    Meets withoutAudit (dispatch state session msgId senderKid request) s
      (Accepts state session senderKid s request) (withoutAudit (effect state s request)) := by
  cases request with
  | getACL dids => exact getACL_meets dids
  | setACL didHash acls => exact setACL_meets didHash acls
  | accessListList didHash cursor | accessListGet didHash hashes =>
    apply Meets.congr
    · exact meets_requirePermissions (meets_storeCall rfl (Meets.of_pure _ s))
    · simp [Accepts]
    · exact fun _ => rfl
  | accessListAdd didHash hashes =>
    apply Meets.congr
    · exact meets_requirePermissions (meets_requireSelfManageList (meets_requireBatch
        (meets_storeCall rfl (meets_recordAudit_pure ..))))
    · simp [Accepts]
    · exact fun _ => rfl
  | accessListRemove didHash hashes =>
    obtain ⟨n, hremove⟩ := accessListRemove_eq_ok s didHash hashes
    apply Meets.congr
    · exact meets_requirePermissions (meets_requireSelfManageList (meets_requireBatch
        (meets_storeCall hremove (meets_recordAudit_pure ..))))
    · simp [Accepts]
    · exact fun _ => rfl
  | accessListClear didHash =>
    apply Meets.congr
    · exact meets_requirePermissions (meets_requireSelfManageList
        (meets_storeCall rfl (meets_recordAudit_pure ..)))
    · simp [Accepts]
    · exact fun _ => rfl

theorem process_meets {msg : Message MediatorACLRequest} {metadata : UnpackMetadata}
    {request : MediatorACLRequest} (hbody : msg.body = some request) :
    Meets withoutAudit (process msg state session metadata) s
      ((session.isAdmin = true → InReplayWindow state msg) ∧ Accepts state session metadata.senderKid s request)
      (withoutAudit (effect state s request)) := by
  unfold process
  rw [hbody]
  exact meets_when_checkAdminTtl (dispatch_meets request)

end Specs

end Acls

end AffinidiTdk.Mediator
