/-
What the Trust Task path accepts and what an accepted task leaves in the store: one condition and
one effect for each task, and from them the same for `process`.
-/
import AffinidiTdk.Mediator.Accounts
import AffinidiTdk.Mediator.TrustTasks

namespace AffinidiTdk.Mediator.TrustTasks

open Acl Store Fallible

variable {framework : Framework} {state : SharedData} {session : Session} {senderKid : Option String}
  {task : TrustTask} {s : MemoryState}

/-- The framework finds nothing wrong with the document. -/
def ValidBasic (framework : Framework) (state : SharedData) (task : TrustTask) : Prop :=
  framework.validateBasic task state.now state.config.mediatorDid = .ok ()

/-! ## Rules for the steps of a task -/

section Rules

variable {α τ : Type} {obs : MemoryState → τ} {f : Unit → Handler α} {G : Prop} {t : τ}

theorem meets_validateTtBasic (hf : Meets obs (f ()) s G t) :
    Meets obs (validateTtBasic framework state session task >>= f) s (ValidBasic framework state task ∧ G) t := by
  refine Meets.check (fun s' => ?_) hf
  unfold validateTtBasic ValidBasic
  cases framework.validateBasic task state.now state.config.mediatorDid with
  | ok u => simp [exec_pure]
  | error reason => simp [exec_throw]

theorem meets_requirePermission {dids : List String} {message : String} (hf : Meets obs (f ()) s G t) :
    Meets obs (requirePermission state session senderKid dids message >>= f) s
      (checkPermissions session dids state.config.security.blockRemoteAdminMsgs senderKid = true ∧ G) t := by
  refine Meets.check (fun s' => ?_) hf
  unfold requirePermission
  rw [exec_ite_throw_eq_ok_iff, exec_pure_eq_ok_iff]
  simp

theorem meets_requireAdmin {taskName : String} (hf : Meets obs (f ()) s G t) :
    Meets obs (requireAdmin session taskName >>= f) s (session.isAdmin = true ∧ G) t := by
  refine Meets.check (fun s' => ?_) hf
  unfold requireAdmin
  cases session.isAdmin <;> simp [exec_pure, exec_throw]

/-- The account of the target or an admin's session, and for a write the right to manage the list. -/
def MayAccessList (state : SharedData) (session : Session) (senderKid : Option String) (targetHash : String)
    (write : Bool) : Prop :=
  checkPermissions session [targetHash] state.config.security.blockRemoteAdminMsgs senderKid = true ∧
    (write = true → session.accountType = .standard → session.acls.getSelfManageList = true)

variable {targetHash : String}

theorem meets_authorizeAccessList {write : Bool} (hf : Meets obs (f ()) s G t) :
    Meets obs (authorizeAccessList state session senderKid targetHash write >>= f) s
    (MayAccessList state session senderKid targetHash write ∧ G) t := by
  have hauth : Meets id (authorizeAccessList state session senderKid targetHash write) s
      (MayAccessList state session senderKid targetHash write) s := by
    apply Meets.congr
    · exact meets_requirePermission (Meets.ite_throw (Meets.of_pure () s))
    · simp [MayAccessList]
    · exact fun _ => rfl
  refine Meets.check (fun s' => ?_) hf
  constructor
  · intro h
    exact ⟨(hauth.sound () s' h).1, (hauth.sound () s' h).2.symm⟩
  · rintro ⟨hmay, rfl⟩
    obtain ⟨⟨⟩, s', h⟩ := hauth.complete hmay
    obtain rfl : s' = s := (hauth.sound () s' h).2
    exact h

theorem meets_fetchAccount {missing : String} {f : Account → Handler α}
    (hsome : (s.accounts targetHash).isSome = true) (hf : ∀ account, Meets obs (f account) s G t) :
    Meets obs (fetchAccount session targetHash missing >>= f) s G t := by
  obtain ⟨record, hrec⟩ := Option.isSome_iff_exists.1 hsome
  have hget : exec (fetchAccount session targetHash missing) s =
      (.ok (record.intoAccount targetHash (((s.accessLists targetHash).map List.length).getD 0)), s) := by
    unfold fetchAccount
    rw [exec_bind, exec_step, Store.accountGet, hrec]
    rfl
  exact Meets.bind hget (hf _)

theorem meets_accessListCount {f : ℕ → Handler α} (hf : ∀ n, Meets obs (f n) s G t) :
    Meets obs (accessListCount targetHash >>= f) s G t :=
  Meets.bind rfl (hf _)

theorem meets_mergeAcl {acl : MediatorAcl} {base : MediatorACLSet} {f : MediatorACLSet → Handler α}
    (hf : Meets obs (f (acl.mergedOnto base)) s G t) : Meets obs (mergeAcl acl base >>= f) s G t := by
  unfold mergeAcl
  rw [mergeWireAcl_eq]
  exact Meets.bind rfl hf

end Rules

theorem meets_adminTask {α τ : Type} {obs : MemoryState → τ} {taskName : String} {x : Handler α} {t : τ}
    (hx : Meets obs x s True t) :
    Meets obs (do validateTtBasic framework state session task; requireAdmin session taskName; x) s
      (ValidBasic framework state task ∧ session.isAdmin = true) t :=
  (meets_validateTtBasic (meets_requireAdmin hx)).congr (by simp) fun _ => rfl

theorem meets_accessListTask {α τ : Type} {obs : MemoryState → τ} {did : String} {write : Bool} {x : Handler α}
    {t : τ} (hx : Meets obs x s True t) :
    Meets obs (do
      validateTtBasic framework state session task
      authorizeAccessList state session senderKid did write
      x) s (ValidBasic framework state task ∧ MayAccessList state session senderKid did write) t :=
  (meets_validateTtBasic (meets_authorizeAccessList hx)).congr (by simp) fun _ => rfl

/-! ## Conditions and effects -/

/-- The ACLs `account/add` gives. -/
def addedAclSet (state : SharedData) (session : Session) (acl : Option MediatorAcl) : MediatorACLSet :=
  if session.isAdmin then (acl.map fun acl => acl.mergedOnto state.config.security.globalAclDefault).getD
    state.config.security.globalAclDefault
  else state.config.security.globalAclDefault

/-- The ACLs `acl/set` starts from: those stored, or none at all. -/
def aclBase (s : MemoryState) (did : String) : MediatorACLSet :=
    ((s.accounts did).map AccountRecord.acls).getD default

/-- The session has permission for the accounts. -/
def Permitted (state : SharedData) (session : Session) (senderKid : Option String) (dids : List String) : Prop :=
  checkPermissions session dids state.config.security.blockRemoteAdminMsgs senderKid = true

/-- What each task asks for beyond a valid document. -/
def Permits (state : SharedData) (session : Session) (senderKid : Option String) (s : MemoryState) :
    TaskPayload → Prop
  | .accountGet did => Permitted state session senderKid [did] ∧ (s.accounts did).isSome = true
  | .accountList _ _ | .adminList _ _ | .adminAuditLog _ _ | .adminConfig | .adminAdd _ | .adminStrip _ =>
    session.isAdmin = true
  | .accountAdd _ type _ =>
    (state.config.security.mediatorAclMode = .explicitAllow → session.isAdmin = true) ∧
      (type.toAccountType = .rootAdmin → session.accountType = .rootAdmin) ∧
      (type.toAccountType.isAdmin = true → session.isAdmin = true)
  | .accountRemove did =>
    Permitted state session senderKid [did] ∧ state.config.mediatorDidHash ≠ did ∧
      state.digest state.config.adminDid ≠ did ∧ Removable s did
  | .accountChangeType did type =>
    StoredAdmin s session.didHash ∧ (type.toAccountType = .rootAdmin → session.accountType = .rootAdmin) ∧
      ((s.accounts did).map AccountRecord.role = some .rootAdmin → session.accountType = .rootAdmin)
  | .accountChangeQueueLimits did _ _ => Permitted state session senderKid [did]
  | .aclGet dids => Permitted state session senderKid dids
  | .aclSet did acl =>
    Permitted state session senderKid [did] ∧ (session.isAdmin = false → deniedFlag acl (aclBase s did) = none)
  | .accessListAdd did _ | .accessListRemove did _ | .accessListClear did =>
    MayAccessList state session senderKid did true
  | .accessListGet did _ | .accessListList did _ => MayAccessList state session senderKid did false
  | .ping _ | .unsupported _ | .mismatched _ => False

/-- What an accepted task does to the store, the audit log aside. -/
def effect (state : SharedData) (session : Session) (s : MemoryState) : TaskPayload → MemoryState
  | .accountAdd did type acl =>
    let added := (Store.accountAdd did (addedAclSet state session acl) none s).2
    if type = .standard then added else (accountSetRole did type.toAccountType added).2
  | .accountRemove did => (Store.accountRemove did s).2
  | .accountChangeType did type => changeRole s did type.toAccountType
  | .accountChangeQueueLimits did send receive =>
    let limits := gatedLimits state session send receive
    (Store.accountChangeQueueLimits did limits.1 limits.2 s).2
  | .aclSet did acl => (setDidAcl did (acl.mergedOnto (aclBase s did)) s).2
  | .accessListAdd did entries => (Store.accessListAdd state.config.limits.accessListLimit did entries s).2
  | .accessListRemove did entries => (Store.accessListRemove did entries s).2
  | .accessListClear did => (Store.accessListClear did s).2
  | .adminAdd dids => (addAdminAccounts dids state.config.security.globalAclDefault s).2
  | .adminStrip dids => (stripAdminAccounts dids s).2
  | _ => s

/-! ## Task by task -/

variable (did : String)

theorem consumeAccountGet_meets :
    Meets withoutAudit (consumeAccountGet framework state session senderKid task did) s
      (ValidBasic framework state task ∧ Permits state session senderKid s (.accountGet did)) (withoutAudit s) := by
  unfold consumeAccountGet
  refine meets_validateTtBasic (meets_requirePermission ?_)
  cases hrec : s.accounts did with
  | some record =>
    exact (meets_fetchAccount (by simp [hrec]) fun account => Meets.of_pure _ s).congr (by simp) fun _ => rfl
  | none =>
    constructor
    · intro response s' h
      obtain ⟨account, s₁, h, -⟩ := exec_bind_eq_ok_iff.1 h
      unfold fetchAccount at h
      rw [exec_bind, exec_step, Store.accountGet, hrec] at h
      cases h
    · intro h
      cases h

theorem consumeAccountChangeQueueLimits_meets (send receive : Option ℤ) :
    Meets withoutAudit (consumeAccountChangeQueueLimits framework state session senderKid task did send receive) s
      (ValidBasic framework state task ∧
        Permits state session senderKid s (.accountChangeQueueLimits did send receive))
      (withoutAudit (effect state session s (.accountChangeQueueLimits did send receive))) := by
  unfold consumeAccountChangeQueueLimits
  apply Meets.congr
  · refine meets_validateTtBasic (meets_requirePermission (meets_step rfl (meets_recordAudit
      (meets_fetchAccount ?_ fun account => Meets.of_pure _ _))))
    simp [withAudit, auditLogRecord, MemoryState.upsertAccount]
  · simp [Permits, Permitted]
  · exact fun _ => rfl

theorem consumeAccountRemove_meets :
    Meets withoutAudit (consumeAccountRemove framework state session senderKid task did) s
      (ValidBasic framework state task ∧ Permits state session senderKid s (.accountRemove did))
      (withoutAudit (effect state session s (.accountRemove did))) := by
  have hstore : Meets withoutAudit
      (do
        let removed ← step (Store.accountRemove did)
        recordAudit state session did .accountRemove "account removed"
        return TaskResponse.removed did removed) s (Removable s did)
      (withoutAudit (Store.accountRemove did s).2) := by
    by_cases hrem : Removable s did
    · exact (meets_step (accountRemove_of_removable hrem) (meets_recordAudit_pure ..)).congr
        (by simp [hrem]) fun _ => rfl
    · constructor
      · intro r s' h
        obtain ⟨removed, s₁, h₁, -⟩ := exec_bind_eq_ok_iff.1 h
        exact absurd (removable_of_accountRemove h₁) hrem
      · exact fun h => absurd h hrem
  unfold consumeAccountRemove
  apply Meets.congr
  · exact meets_validateTtBasic (meets_requirePermission (Meets.guard hstore))
  · simp [Permits, Permitted, and_assoc]
  · exact fun _ => rfl

theorem setTypeAndFetch_meets (newType : AccountType) :
    Meets withoutAudit (setTypeAndFetch state session did newType) s True
      (withoutAudit (accountSetRole did newType s).2) := by
  refine meets_step rfl (meets_recordAudit (meets_fetchAccount ?_ fun account => Meets.of_pure _ _))
  simp [withAudit, auditLogRecord, MemoryState.upsertAccount]

theorem changeCurrentType_meets {did : String} (newType : AccountType) {record : AccountRecord}
    (hrec : s.accounts did = some record) {current : Account} (hcur : current.type = record.role) :
    Meets withoutAudit (changeCurrentType state session did newType current) s
      (record.role = .rootAdmin → session.accountType = .rootAdmin)
      (withoutAudit (changeRole s did newType)) := by
  unfold changeCurrentType
  simp only [hcur]
  refine Accounts.changeType_meets hrec (fun _ => setTypeAndFetch_meets did newType)
    (meets_recordAudit (meets_fetchAccount ?_ fun account => Meets.of_pure _ _))
  simp [accountSetRole, withAudit, auditLogRecord, MemoryState.upsertAccount]

theorem consumeAccountChangeType_meets (type : WireType) :
    Meets withoutAudit (consumeAccountChangeType framework state session task did type) s
      (ValidBasic framework state task ∧ Permits state session senderKid s (.accountChangeType did type))
      (withoutAudit (effect state session s (.accountChangeType did type))) := by
  unfold consumeAccountChangeType
  cases hrec : s.accounts did with
  | none =>
    have hget : Store.accountGet did s = (.ok none, s) := by simp [Store.accountGet, hrec]
    have heffect : (accountSetRole did type.toAccountType s).2 = changeRole s did type.toAccountType := by
      unfold changeRole
      rw [hrec, if_neg (by simp)]
    apply Meets.congr
    · exact meets_validateTtBasic (meets_step (checkAdminAccount_eq s session.didHash)
        (Meets.guard (Meets.guard (meets_step hget (setTypeAndFetch_meets did type.toAccountType)))))
    · simp [Permits, hrec]
    · intro _
      rw [heffect]
      rfl
  | some record =>
    have hget : Store.accountGet did s =
        (.ok (some (record.intoAccount did (((s.accessLists did).map List.length).getD 0))), s) := by
      simp [Store.accountGet, hrec]
    apply Meets.congr
    · exact meets_validateTtBasic (meets_step (checkAdminAccount_eq s session.didHash)
        (Meets.guard (Meets.guard (meets_step hget (changeCurrentType_meets type.toAccountType hrec rfl)))))
    · simp [Permits, hrec]
    · exact fun _ => rfl

theorem addedAcls_eq (acl : Option MediatorAcl) :
    addedAcls state session acl = pure (addedAclSet state session acl) := by
  unfold addedAcls addedAclSet mergeAcl
  cases hadmin : session.isAdmin <;> cases acl <;> simp [mergeWireAcl_eq]

theorem exec_applyAddedRole (newType : AccountType) (account : Account) (s : MemoryState) :
    ∃ account', exec (applyAddedRole did newType account) s =
      (.ok account', if newType = .standard then s else (accountSetRole did newType s).2) := by
  unfold applyAddedRole
  by_cases htype : newType = .standard
  · simp only [htype, ne_eq, not_true, if_false, if_true]
    exact ⟨account, rfl⟩
  · simp only [htype, ne_eq, not_false_iff, if_true, if_false]
    exact ⟨_, rfl⟩

theorem consumeAccountAdd_meets (type : WireType) (acl : Option MediatorAcl) :
    Meets withoutAudit (consumeAccountAdd framework state session task did type acl) s
      (ValidBasic framework state task ∧ Permits state session senderKid s (.accountAdd did type acl))
      (withoutAudit (effect state session s (.accountAdd did type acl))) := by
  have hstore : Meets withoutAudit
      (do
        let acls ← addedAcls state session acl
        let account ← step (Store.accountAdd did acls none)
        let account ← applyAddedRole did type.toAccountType account
        recordAudit state session did .accountAdd "account created"
        return TaskResponse.account (toWireAccount account)) s True
      (withoutAudit (effect state session s (.accountAdd did type acl))) := by
    rw [addedAcls_eq, pure_bind]
    refine meets_step rfl ?_
    obtain ⟨account', hrole⟩ := exec_applyAddedRole did type.toAccountType
      (AccountRecord.intoAccount (newRecord (addedAclSet state session acl) none) did 0)
      (Store.accountAdd did (addedAclSet state session acl) none s).2
    refine Meets.bind hrole ((meets_recordAudit_pure ..).congr Iff.rfl fun _ => ?_)
    cases type <;> rfl
  unfold consumeAccountAdd
  apply Meets.congr
  · exact meets_validateTtBasic (Meets.guard (Meets.guard (Meets.guard hstore)))
  · simp [Permits]
  · exact fun _ => rfl

theorem consumeAclGet_meets (dids : List String) :
    Meets withoutAudit (consumeAclGet framework state session senderKid task dids) s
      (ValidBasic framework state task ∧ Permits state session senderKid s (.aclGet dids)) (withoutAudit s) := by
  have hcollect : ∀ dids : List String, ∃ found, exec (collectAcls dids) s = (.ok found, s) := by
    intro dids
    induction dids with
    | nil => exact ⟨_, rfl⟩
    | cons did rest ih =>
      obtain ⟨found, hfound⟩ := ih
      unfold collectAcls
      rw [exec_bind_of_ok (show exec (step (getDidAcl did)) s = _ from rfl), exec_bind_of_ok hfound]
      cases (s.accounts did).map AccountRecord.acls <;> exact ⟨_, rfl⟩
  obtain ⟨found, hfound⟩ := hcollect dids
  unfold consumeAclGet
  apply Meets.congr
  · exact meets_validateTtBasic (meets_requirePermission (Meets.bind hfound (Meets.of_pure _ s)))
  · simp [Permits, Permitted]
  · exact fun _ => rfl

theorem consumeAclSet_meets (acl : MediatorAcl) :
    Meets withoutAudit (consumeAclSet framework state session senderKid task did acl) s
      (ValidBasic framework state task ∧ Permits state session senderKid s (.aclSet did acl))
      (withoutAudit (effect state session s (.aclSet did acl))) := by
  have hstore : Meets withoutAudit
      (do
        let merged ← mergeAcl acl (aclBase s did)
        let stored ← step (setDidAcl did merged)
        recordAudit state session did .setAcl ("acl -> 0x" ++ hex16 stored.toU64)
        return TaskResponse.aclSet did (decodeAclCanonical stored)) s True
      (withoutAudit (effect state session s (.aclSet did acl))) :=
    meets_mergeAcl (meets_step rfl (meets_recordAudit_pure ..))
  have hcheck : Meets withoutAudit
      (do
        if !session.isAdmin then
          ensureSelfManageable session acl (aclBase s did)
        let merged ← mergeAcl acl (aclBase s did)
        let stored ← step (setDidAcl did merged)
        recordAudit state session did .setAcl ("acl -> 0x" ++ hex16 stored.toU64)
        return TaskResponse.aclSet did (decodeAclCanonical stored)) s
      (session.isAdmin = false → deniedFlag acl (aclBase s did) = none)
      (withoutAudit (effect state session s (.aclSet did acl))) := by
    cases hadmin : session.isAdmin with
    | true => exact hstore.congr (by simp) fun _ => rfl
    | false =>
      simp only [Bool.not_false, if_true, forall_const]
      have hensure : ∀ s', exec (ensureSelfManageable session acl (aclBase s did)) s = (.ok (), s') ↔
          deniedFlag acl (aclBase s did) = none ∧ s = s' := by
        intro s'
        unfold ensureSelfManageable
        cases deniedFlag acl (aclBase s did) with
        | none => simp [exec_pure]
        | some flag => simp [exec_throw]
      exact (Meets.check hensure hstore).congr (by simp) fun _ => rfl
  unfold consumeAclSet
  apply Meets.congr
  · exact meets_validateTtBasic (meets_requirePermission (meets_step rfl hcheck))
  · simp [Permits, Permitted]
  · exact fun _ => rfl

/-! ## The whole path -/

/-- A task is accepted where its document is valid and its own checks pass; a ping, where the
framework takes it. -/
def Accepts (framework : Framework) (state : SharedData) (session : Session) (senderKid : String)
    (s : MemoryState) (task : TrustTask) : Prop :=
  match task.payload with
  | .ping _ =>
    ∃ response, framework.consumePing task state.config.mediatorDid (Text.before '#' senderKid) state.now =
      .ok response
  | payload => ValidBasic framework state task ∧ Permits state session (some senderKid) s payload

theorem dispatch_meets (framework : Framework) (state : SharedData) (session : Session) (senderKid : String)
    (s : MemoryState) (task : TrustTask) :
    Meets withoutAudit (dispatch framework state session (some senderKid) task (Text.before '#' senderKid)) s
      (Accepts framework state session senderKid s task) (withoutAudit (effect state session s task.payload)) := by
  unfold dispatch Accepts
  cases task.payload with
  | ping nonce =>
    unfold consumePing
    cases framework.consumePing task state.config.mediatorDid (Text.before '#' senderKid) state.now with
    | ok response => exact (Meets.of_pure _ s).congr (by simp) fun _ => rfl
    | error e => exact (Meets.of_throw e s (withoutAudit s)).congr (by simp) fun h => h.elim
  | accountGet did => exact (consumeAccountGet_meets did).map some
  | accountList cursor limit =>
    refine (meets_adminTask ?_).map some
    exact meets_step rfl (Meets.of_pure _ s)
  | accountAdd did type acl => exact (consumeAccountAdd_meets did type acl).map some
  | accountRemove did => exact (consumeAccountRemove_meets did).map some
  | accountChangeType did type => exact (consumeAccountChangeType_meets did type).map some
  | accountChangeQueueLimits did send receive =>
    exact (consumeAccountChangeQueueLimits_meets did send receive).map some
  | aclGet dids => exact (consumeAclGet_meets dids).map some
  | aclSet did acl => exact (consumeAclSet_meets did acl).map some
  | accessListAdd did entries =>
    refine (meets_accessListTask ?_).map some
    exact meets_step rfl (meets_recordAudit (meets_accessListCount fun _ => Meets.of_pure _ _))
  | accessListRemove did entries =>
    refine (meets_accessListTask ?_).map some
    obtain ⟨n, hremove⟩ := accessListRemove_eq_ok s did entries
    exact meets_step rfl (meets_step hremove (meets_recordAudit (meets_accessListCount fun _ => Meets.of_pure _ _)))
  | accessListClear did =>
    refine (meets_accessListTask ?_).map some
    exact meets_step rfl (meets_recordAudit (meets_accessListCount fun _ => Meets.of_pure _ _))
  | accessListGet did entries =>
    refine (meets_accessListTask ?_).map some
    exact meets_step rfl (Meets.of_pure _ s)
  | accessListList did cursor =>
    refine (meets_accessListTask ?_).map some
    exact meets_step rfl (meets_accessListCount fun _ => Meets.of_pure _ s)
  | adminAdd dids | adminStrip dids =>
    refine (meets_adminTask ?_).map some
    exact meets_step rfl (meets_recordAudits_pure ..)
  | adminList cursor limit | adminAuditLog cursor limit =>
    refine (meets_adminTask ?_).map some
    exact meets_step rfl (Meets.of_pure _ s)
  | adminConfig =>
    refine (meets_adminTask ?_).map some
    exact Meets.of_pure _ s
  | unsupported typeUri
  | mismatched err => exact (Meets.of_throw _ s (withoutAudit s)).congr (by simp [Permits]) fun h => h.elim

variable {msg : Message TrustTask} {metadata : UnpackMetadata}

theorem process_meets {kid : String} (hkid : metadata.senderKid = some kid) {task : TrustTask}
    (hbody : msg.body = some task) : Meets withoutAudit (process framework msg state session metadata) s
    (Accepts framework state session kid s task) (withoutAudit (effect state session s task.payload)) := by
  have hdispatch := dispatch_meets framework state session kid s task
  unfold process
  rw [hkid]
  dsimp only
  rw [hbody]
  constructor
  · intro response s' h
    obtain ⟨answer, s₁, hans, hresp⟩ := exec_bind_eq_ok_iff.1 h
    have hs : s₁ = s' := by
      cases answer with
      | none | some body => exact (exec_pure_eq_ok_iff.1 hresp).2
    exact hs ▸ hdispatch.sound answer s₁ hans
  · intro hacc
    obtain ⟨answer, s', hans⟩ := hdispatch.complete hacc
    cases answer with
    | none => exact ⟨none, s', exec_bind_eq_ok_iff.2 ⟨none, s', hans, rfl⟩⟩
    | some body => exact ⟨_, s', exec_bind_eq_ok_iff.2 ⟨some body, s', hans, rfl⟩⟩

theorem sender_and_body_of_process {response : Option TrustTaskMessage} {s' : MemoryState}
    (h : exec (process framework msg state session metadata) s = (.ok response, s')) : ∃ kid task,
    metadata.senderKid = some kid ∧ msg.body = some task := by
  unfold process at h
  cases hkid : metadata.senderKid with
  | none => simp [hkid, exec_throw] at h
  | some kid =>
    cases hbody : msg.body with
    | none => simp [hkid, hbody, exec_throw] at h
    | some task => exact ⟨kid, task, rfl, rfl⟩

end AffinidiTdk.Mediator.TrustTasks
