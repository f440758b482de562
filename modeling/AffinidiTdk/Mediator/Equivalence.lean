/-
The Trust Task path against the legacy protocols it ports: for each management task the legacy
request that asks for the same, and the exact condition under which an accepted task would also
have been accepted there, freshly dated, with the same accounts, admins and access lists after it.
-/
import AffinidiTdk.Mediator.RootAdmin

namespace AffinidiTdk.Mediator

open Acl Store Fallible Administration

/-! ## The legacy request of a task -/

/-- A request of one of the three older protocols. -/
inductive LegacyRequest
  | account (request : MediatorAccountRequest)
  | acl (request : MediatorACLRequest)
  | admin (request : MediatorAdminRequest)

/-- The request in a message created just now, handled by its protocol. -/
def LegacyRequest.processFresh (msgId : String) (state : SharedData) (session : Session)
    (metadata : UnpackMetadata) : LegacyRequest → Handler ProcessMessageResponse
  | account request => Accounts.process ⟨msgId, some state.now, some request⟩ state session metadata
  | acl request => Acls.process ⟨msgId, some state.now, some request⟩ state session metadata
  | admin request => Administration.process ⟨msgId, some state.now, some request⟩ state session metadata

/-- The legacy counterpart of a management task; ACLs travel as the merged word. -/
def legacyOf (state : SharedData) (s : MemoryState) : TaskPayload → Option LegacyRequest
  | .accountAdd did .standard acl =>
    some (.account (.accountAdd did
      (acl.map fun acl => (acl.mergedOnto state.config.security.globalAclDefault).toU64)))
  | .accountRemove did => some (.account (.accountRemove did))
  | .accountChangeType did type => some (.account (.accountChangeType did type.toAccountType))
  | .accountChangeQueueLimits did send receive =>
    some (.account (.accountChangeQueueLimits did (send.map asI32) (receive.map asI32)))
  | .aclSet did acl => some (.acl (.setACL did (acl.mergedOnto (TrustTasks.aclBase s did)).toU64))
  | .accessListAdd did entries => some (.acl (.accessListAdd did entries))
  | .accessListRemove did entries => some (.acl (.accessListRemove did entries))
  | .accessListClear did => some (.acl (.accessListClear did))
  | .adminAdd dids => some (.admin (.adminAdd dids))
  | .adminStrip dids => some (.admin (.adminStrip dids))
  | _ => none

/-- The same accounts with all they hold, the same admin set and the same access lists. -/
structure SameManagement (s s' : MemoryState) : Prop where
  accounts : s.accounts = s'.accounts
  admins : s.admins = s'.admins
  accessLists : s.accessLists = s'.accessLists

theorem SameManagement.refl (s : MemoryState) : SameManagement s s := ⟨rfl, rfl, rfl⟩

theorem SameManagement.symm {s s' : MemoryState} (h : SameManagement s s') : SameManagement s' s :=
  ⟨h.accounts.symm, h.admins.symm, h.accessLists.symm⟩

/-! ## Where the two paths part -/

/-- The replay window lets in a message created just now. -/
def FreshAdmitted (state : SharedData) : Prop :=
  0 < state.config.security.adminMessagesExpiry ∧ state.now < 2 ^ 64 - 1

theorem inReplayWindow_fresh_iff {R : Type} {state : SharedData} {msg : Message R}
    (hfresh : msg.createdTime = some state.now) : InReplayWindow state msg ↔ FreshAdmitted state := by
  unfold InReplayWindow FreshAdmitted adminMessageTtlStatus saturatingAddU64
  rw [hfresh]
  simp only [ite_eq_right_iff, reduceCtorEq, imp_false, not_or, gt_iff_lt, lt_irrefl, not_false_iff, and_true,
    not_le]
  omega

/-- The configured accounts in a strip list are stripped already: the legacy path skips them. -/
def SkipsNothing (state : SharedData) (s : MemoryState) (dids : List String) : Prop :=
  ∀ k ∈ dids, k ∉ Administration.strippable state dids →
    (s.accounts k).map AccountRecord.role = some .standard ∧ k ∉ s.admins

/-- What the legacy path asks for and the Trust Task path does not. -/
def LegacyAgrees (state : SharedData) (session : Session) (senderKid : Option String) (s : MemoryState) :
    TaskPayload → Prop
  | .accessListAdd _ entries | .accessListRemove _ entries =>
    (session.isAdmin = true → FreshAdmitted state) ∧ Acls.BatchOk entries
  | .aclSet did _ =>
    (session.isAdmin = true → FreshAdmitted state) ∧
      (session.isAdmin = false → (s.accounts did).isSome = true ∨
        aclChangeOk state.config.security.globalAclDefault (.fromU64 0) = none)
  | .adminAdd _ => FreshAdmitted state ∧ Administration.Authorized state session senderKid s
  | .adminStrip dids =>
    FreshAdmitted state ∧ Administration.Authorized state session senderKid s ∧
      Administration.strippable state dids ≠ [] ∧ SkipsNothing state s dids
  | _ => session.isAdmin = true → FreshAdmitted state

/-! ## Task by task -/

section Tasks

variable {state : SharedData} {session : Session} {senderKid : Option String} {s : MemoryState}

theorem gateSelfManagedLimit_eq (requested : Option ℤ) (selfManaged : Bool) (hard : ℤ) :
    TrustTasks.gateSelfManagedLimit requested selfManaged hard = Accounts.gateLimit selfManaged hard requested := by
  unfold TrustTasks.gateSelfManagedLimit Accounts.gateLimit
  cases selfManaged <;> cases requested <;> simp

theorem gatedLimits_eq (send receive : Option ℤ) :
    TrustTasks.gatedLimits state session send receive =
      Accounts.allowedLimits state session (send.map asI32) (receive.map asI32) := by
  unfold TrustTasks.gatedLimits Accounts.allowedLimits
  simp only [gateSelfManagedLimit_eq]

theorem addedAclSet_eq (acl : Option MediatorAcl) :
    TrustTasks.addedAclSet state session acl = Accounts.newAccountAcls state session
      (acl.map fun acl => (acl.mergedOnto state.config.security.globalAclDefault).toU64) := by
  unfold TrustTasks.addedAclSet Accounts.newAccountAcls
  cases session.isAdmin <;> cases acl <;> rfl

/-- The gate of a self-service change, given that the Trust Task path let the flags through. -/
theorem aclChangeOk_merged_iff {did : String} {acl : MediatorAcl}
    (hdenied : deniedFlag acl (TrustTasks.aclBase s did) = none) :
    aclChangeOk (.fromU64 (Acls.currentWord state did s))
    (.fromU64 (acl.mergedOnto (TrustTasks.aclBase s did)).toU64) = none ↔
    ((s.accounts did).isSome = true ∨ aclChangeOk state.config.security.globalAclDefault (.fromU64 0) = none) := by
  have hself := selfChangeOnly_mergedOnto hdenied
  unfold Acls.currentWord
  cases hrec : s.accounts did with
  | some record =>
    have hbase : TrustTasks.aclBase s did = record.acls := by simp [TrustTasks.aclBase, hrec]
    rw [hbase] at hself ⊢
    exact iff_of_true hself.aclChangeOk_eq_none (.inl rfl)
  | none =>
    -- nothing is stored, so the task started from the empty word and had to leave it
    have hbase : TrustTasks.aclBase s did = default := by simp [TrustTasks.aclBase, hrec]
    rw [hbase] at hself ⊢
    have hzero : (acl.mergedOnto default).toU64 = 0 := SelfChangeOnly.eq_zero hself
    rw [hzero]
    simp [MediatorACLSet.fromU64, MediatorACLSet.toU64]

/-! Stripping a list and stripping a part of it. -/

theorem stripAdminAccounts_accounts (dids : List String) (s : MemoryState) (k : String) :
    (stripAdminAccounts dids s).2.accounts k =
      if k ∈ dids then some { (s.accounts k).getD default with role := .standard } else s.accounts k := by
  unfold stripAdminAccounts
  dsimp only
  induction dids generalizing s with
  | nil => simp
  | cons did rest ih =>
    rw [List.foldl_cons, ih, accountSetRole_accounts]
    by_cases hk : k = did
    · subst hk
      by_cases hrest : k ∈ rest <;> simp [hrest]
    · by_cases hrest : k ∈ rest <;> simp [hrest, hk]

theorem stripAdminAccounts_admins (dids : List String) (s : MemoryState) :
    (stripAdminAccounts dids s).2.admins = s.admins.filter fun k => k ∉ dids := by
  unfold stripAdminAccounts
  dsimp only
  induction dids generalizing s with
  | nil => simp
  | cons did rest ih =>
    rw [List.foldl_cons, ih]
    ext k
    have hadmins : (accountSetRole did .standard s).2.admins = s.admins.erase did := rfl
    rw [hadmins]
    simp only [Finset.mem_filter, Finset.mem_erase, List.mem_cons, not_or]
    tauto

theorem stripAdminAccounts_accessLists (dids : List String) (s : MemoryState) :
    (stripAdminAccounts dids s).2.accessLists = s.accessLists := by
  unfold stripAdminAccounts
  dsimp only
  induction dids generalizing s with
  | nil => rfl
  | cons did rest ih =>
    rw [List.foldl_cons, ih]
    rfl

theorem mem_of_mem_strippable {dids : List String} {k : String} (h : k ∈ strippable state dids) :
    k ∈ dids := List.mem_of_mem_filter h

theorem sameManagement_strip_iff (state : SharedData) (s : MemoryState) (dids : List String) :
    SameManagement (stripAdminAccounts dids s).2
        (stripAdminAccounts (strippable state dids) s).2 ↔ SkipsNothing state s dids := by
  constructor
  · intro h k hk hskip
    have haccount := congrFun h.accounts k
    rw [stripAdminAccounts_accounts, stripAdminAccounts_accounts, if_pos hk, if_neg hskip] at haccount
    have hadmins := h.admins
    rw [stripAdminAccounts_admins, stripAdminAccounts_admins] at hadmins
    refine ⟨by rw [← haccount, Option.map_some], fun hmem => ?_⟩
    have : k ∈ s.admins.filter fun k => k ∉ strippable state dids := by simp [hmem, hskip]
    rw [← hadmins] at this
    simp [hk] at this
  · intro h
    refine ⟨?_, ?_, ?_⟩
    · funext k
      rw [stripAdminAccounts_accounts, stripAdminAccounts_accounts]
      by_cases hstrip : k ∈ strippable state dids
      · rw [if_pos hstrip, if_pos (mem_of_mem_strippable hstrip)]
      · rw [if_neg hstrip]
        by_cases hk : k ∈ dids
        · obtain ⟨record, hrec, hrole⟩ := Option.map_eq_some_iff.1 (h k hk hstrip).1
          rw [if_pos hk, hrec, Option.getD_some, ← hrole]
        · rw [if_neg hk]
    · rw [stripAdminAccounts_admins, stripAdminAccounts_admins]
      apply Finset.filter_congr
      intro k hmem
      constructor
      · exact fun hk hstrip => hk (mem_of_mem_strippable hstrip)
      · intro hstrip hk
        exact (h k hk hstrip).2 hmem
    · rw [stripAdminAccounts_accessLists, stripAdminAccounts_accessLists]

end Tasks

/-! ## The two paths -/

section Paths

variable {framework : Framework} {state : SharedData} {session : Session} {metadata : UnpackMetadata}
  {s s' : MemoryState}

theorem SameManagement.of_withoutAudit {t u u' : MemoryState} (h : SameManagement t u)
    (hu : withoutAudit u = withoutAudit u') : SameManagement t u' := by
  have haccounts : (withoutAudit u).accounts = (withoutAudit u').accounts := by rw [hu]
  have hadmins : (withoutAudit u).admins = (withoutAudit u').admins := by rw [hu]
  have hlists : (withoutAudit u).accessLists = (withoutAudit u').accessLists := by rw [hu]
  exact ⟨h.accounts.trans haccounts, h.admins.trans hadmins, h.accessLists.trans hlists⟩

theorem exists_same_iff {α : Type} {x : Handler α} {G : Prop} {e : MemoryState}
    (hx : Meets withoutAudit x s G (withoutAudit e)) (t : MemoryState) :
    (∃ a s₂, exec x s = (.ok a, s₂) ∧ SameManagement t s₂) ↔ G ∧ SameManagement t e := by
  constructor
  · rintro ⟨a, s₂, h, hsame⟩
    obtain ⟨hG, hobs⟩ := hx.sound a s₂ h
    exact ⟨hG, hsame.of_withoutAudit hobs⟩
  · rintro ⟨hG, hsame⟩
    obtain ⟨a, s₂, h⟩ := hx.complete hG
    exact ⟨a, s₂, h, hsame.of_withoutAudit (hx.sound a s₂ h).2.symm⟩

/-- The legacy path takes the request and leaves the store as the task does. -/
def LegacyMatches (msgId : String) (state : SharedData) (session : Session) (metadata : UnpackMetadata)
    (s : MemoryState) (request : LegacyRequest) (t : MemoryState) : Prop :=
  ∃ response s₂, exec (request.processFresh msgId state session metadata) s = (.ok response, s₂) ∧
    SameManagement t s₂

section Requests

variable {msgId : String} {t : MemoryState}

theorem legacyMatches_account_iff {request : MediatorAccountRequest} : LegacyMatches msgId state session metadata s
    (.account request) t ↔ ((session.isAdmin = true → FreshAdmitted state) ∧ Accounts.Accepts state session
    metadata.senderKid s request) ∧ SameManagement t (Accounts.effect state session s request) := by
  unfold LegacyMatches LegacyRequest.processFresh
  rw [exists_same_iff (Accounts.process_meets rfl), inReplayWindow_fresh_iff rfl]

theorem legacyMatches_acl_iff {request : MediatorACLRequest} :
    LegacyMatches msgId state session metadata s (.acl request) t ↔
      ((session.isAdmin = true → FreshAdmitted state) ∧ Acls.Accepts state session metadata.senderKid s request) ∧
      SameManagement t (Acls.effect state s request) := by
  unfold LegacyMatches LegacyRequest.processFresh
  rw [exists_same_iff (Acls.process_meets rfl), inReplayWindow_fresh_iff rfl]

theorem legacyMatches_admin_iff {request : MediatorAdminRequest} : LegacyMatches msgId state session metadata s
    (.admin request) t ↔ (FreshAdmitted state ∧ Authorized state session metadata.senderKid s ∧
    Accepts state request) ∧ SameManagement t (effect state s request) := by
  unfold LegacyMatches LegacyRequest.processFresh
  rw [exists_same_iff (process_meets rfl), inReplayWindow_fresh_iff rfl]

end Requests

/-- What remains of the legacy condition once the task is permitted. -/
theorem legacyMatches_effect_iff (msgId : String) {payload : TaskPayload} {request : LegacyRequest}
    (hlegacy : legacyOf state s payload = some request)
    (hperm : TrustTasks.Permits state session metadata.senderKid s payload) :
    LegacyMatches msgId state session metadata s request (TrustTasks.effect state session s payload) ↔
      LegacyAgrees state session metadata.senderKid s payload := by
  cases payload with
  | accountAdd did type acl =>
    cases type with
    | standard =>
      cases hlegacy
      have hsame : SameManagement (TrustTasks.effect state session s (.accountAdd did .standard acl))
          (Accounts.effect state session s (.accountAdd did
            (acl.map fun acl => (acl.mergedOnto state.config.security.globalAclDefault).toU64))) := by
        simp only [TrustTasks.effect, Accounts.effect, addedAclSet_eq, if_true]
        exact SameManagement.refl _
      rw [legacyMatches_account_iff]
      exact ⟨fun h => h.1.1, fun h => ⟨⟨h, hperm.1⟩, hsame⟩⟩
    | admin => cases hlegacy
    | rootAdmin => cases hlegacy
    | mediator => cases hlegacy
  | accountRemove did | accountChangeType did type =>
    cases hlegacy
    rw [legacyMatches_account_iff]
    exact ⟨fun h => h.1.1, fun h => ⟨⟨h, hperm⟩, SameManagement.refl _⟩⟩
  | accountChangeQueueLimits did send receive =>
    cases hlegacy
    rw [legacyMatches_account_iff]
    refine ⟨fun h => h.1.1, fun h => ⟨⟨h, hperm⟩, ?_⟩⟩
    simp only [TrustTasks.effect, Accounts.effect, gatedLimits_eq]
    exact SameManagement.refl _
  | aclSet did acl =>
    cases hlegacy
    rw [legacyMatches_acl_iff]
    constructor
    · rintro ⟨⟨hfresh, -, hgate⟩, -⟩
      exact ⟨hfresh, fun hadmin => (aclChangeOk_merged_iff (hperm.2 hadmin)).1 (hgate hadmin)⟩
    · rintro ⟨hfresh, hstored⟩
      refine ⟨⟨hfresh, hperm.1, fun hadmin => ?_⟩, SameManagement.refl _⟩
      exact (aclChangeOk_merged_iff (hperm.2 hadmin)).2 (hstored hadmin)
  | accessListAdd did entries | accessListRemove did entries =>
    cases hlegacy
    rw [legacyMatches_acl_iff]
    exact ⟨fun h => ⟨h.1.1, h.1.2.2.2⟩, fun h => ⟨⟨h.1, hperm.1, hperm.2 rfl, h.2⟩, SameManagement.refl _⟩⟩
  | accessListClear did =>
    cases hlegacy
    rw [legacyMatches_acl_iff]
    exact ⟨fun h => h.1.1, fun h => ⟨⟨h, hperm.1, hperm.2 rfl⟩, SameManagement.refl _⟩⟩
  | adminAdd dids =>
    cases hlegacy
    rw [legacyMatches_admin_iff]
    exact ⟨fun h => ⟨h.1.1, h.1.2.1⟩, fun h => ⟨⟨h.1, h.2, trivial⟩, SameManagement.refl _⟩⟩
  | adminStrip dids =>
    cases hlegacy
    rw [legacyMatches_admin_iff]
    have hstrip := sameManagement_strip_iff state s dids
    exact ⟨fun h => ⟨h.1.1, h.1.2.1, h.1.2.2, hstrip.1 h.2⟩, fun h => ⟨⟨h.1, h.2.1, h.2.2.1⟩, hstrip.2 h.2.2.2⟩⟩
  | _ => cases hlegacy

theorem permits_of_accepts {kid : String} {task : TrustTask} {request : LegacyRequest}
    (hlegacy : legacyOf state s task.payload = some request)
    (hacc : TrustTasks.Accepts framework state session kid s task) :
    TrustTasks.Permits state session (some kid) s task.payload := by
  unfold TrustTasks.Accepts at hacc
  generalize task.payload = payload at *
  cases payload with
  | ping nonce => cases hlegacy
  | _ => exact hacc.2

/-- An accepted management task would have been accepted as its legacy request, with the same
store, exactly where the checks hold that only the legacy path makes. -/
theorem trustTask_matches_legacy_iff {msg : Message TrustTask} {task : TrustTask} {request : LegacyRequest}
    {response : Option TrustTaskMessage} (hbody : msg.body = some task)
    (hlegacy : legacyOf state s task.payload = some request)
    (h : exec (TrustTasks.process framework msg state session metadata) s = (.ok response, s')) :
    LegacyMatches msg.id state session metadata s request s' ↔
      LegacyAgrees state session metadata.senderKid s task.payload := by
  obtain ⟨kid, -, hkid, -⟩ := TrustTasks.sender_and_body_of_process h
  obtain ⟨hacc, hobs⟩ := (TrustTasks.process_meets hkid hbody).sound response s' h
  have hperm := permits_of_accepts hlegacy hacc
  rw [← hkid] at hperm
  have hsame : ∀ s₂, SameManagement s' s₂ ↔ SameManagement (TrustTasks.effect state session s task.payload) s₂ :=
    fun s₂ => ⟨fun h => (h.symm.of_withoutAudit hobs).symm, fun h => (h.symm.of_withoutAudit hobs.symm).symm⟩
  refine Iff.trans ?_ (legacyMatches_effect_iff msg.id hlegacy hperm)
  unfold LegacyMatches
  simp only [hsame]

/-! ## Tasks the legacy path refuses -/

/-- Anna's session as an account that manages its access list. -/
def annaSelfManaging : Session := { anna with accountType := .standard, acls := .fromU64 0x10000 }

/-- `admin/strip` of the configured root admin and an empty `access-list/add` are accepted; their
legacy requests are refused. -/
theorem legacy_refuses_task :
    (exec (TrustTasks.process openFramework ⟨"m", none, some ⟨"", .adminStrip [rootHash]⟩⟩ plainState anna
      signedByAnna) adminStore).1.isOk = true ∧
    (exec (LegacyRequest.processFresh "m" plainState anna signedByAnna (.admin (.adminStrip [rootHash])))
      adminStore).1.isOk = false ∧
    (exec (TrustTasks.process openFramework ⟨"m", none, some ⟨"", .accessListAdd anna.didHash []⟩⟩ plainState
      annaSelfManaging signedByAnna) adminStore).1.isOk = true ∧
    (exec (LegacyRequest.processFresh "m" plainState annaSelfManaging signedByAnna
      (.acl (.accessListAdd anna.didHash []))) adminStore).1.isOk = false := by
  decide +kernel

def promoteBobTask : Message TrustTask := ⟨"m", none, some ⟨"", .adminAdd ["h:did:example:bob"]⟩⟩

/-- The promotion of Bob by a stored admin is the same on both paths. -/
theorem legacyMatches_promoteBob :
    ∃ response s', exec (TrustTasks.process openFramework promoteBobTask plainState anna signedByAnna) adminStore =
        (.ok response, s') ∧
      LegacyMatches "m" plainState anna signedByAnna adminStore (.admin (.adminAdd ["h:did:example:bob"])) s' := by
  have hmeets : Meets withoutAudit (TrustTasks.process openFramework promoteBobTask plainState anna signedByAnna)
      adminStore _ _ := TrustTasks.process_meets rfl rfl
  obtain ⟨response, s', h⟩ := hmeets.complete ⟨rfl, rfl⟩
  refine ⟨response, s', h, (trustTask_matches_legacy_iff rfl rfl h).2 ?_⟩
  exact ⟨⟨by decide, by decide⟩, by decide, fun hblock => absurd hblock (by decide)⟩

end Paths

end AffinidiTdk.Mediator
