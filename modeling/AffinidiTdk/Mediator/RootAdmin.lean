/-
The protection of the root administrator across the three management front ends. Every request
writes one role to a list of accounts, or none; whether the root admins and the configured accounts
keep theirs depends on that write alone.
-/
import AffinidiTdk.Mediator.Accounts
import AffinidiTdk.Mediator.Administration
import AffinidiTdk.Mediator.TrustTaskEffects

namespace AffinidiTdk.Mediator

open Acl Fallible List Store Administration

/-! ## Roles after a store operation -/

def roleOf (s : MemoryState) (k : String) : Option AccountType := (s.accounts k).map AccountRecord.role

/-- One role written to many accounts. -/
structure RoleWrite where
  targets : List String
  role : AccountType

def RoleWrite.nothing : RoleWrite := ⟨[], .standard⟩

/-- The account's role may only have moved in that the account is new, and standard. -/
def RoleKept (s s' : MemoryState) (k : String) : Prop :=
  roleOf s' k = roleOf s k ∨ roleOf s k = none ∧ roleOf s' k = some .standard

/-- The targets have the role, everybody else keeps theirs. -/
structure RoleWrite.Performed (write : RoleWrite) (s s' : MemoryState) : Prop where
  written : ∀ k ∈ write.targets, roleOf s' k = some write.role
  kept : ∀ k, k ∉ write.targets → RoleKept s s' k

section Roles

variable (s : MemoryState) (didHash : String)

theorem performed_of_accounts_eq {s' : MemoryState} (h : s'.accounts = s.accounts) :
    RoleWrite.nothing.Performed s s' := by
  refine ⟨fun _ hk => absurd hk not_mem_nil, fun k _ => .inl ?_⟩
  unfold roleOf
  rw [h]

theorem performed_of_roleOf {write : RoleWrite} {s' : MemoryState}
    (h : ∀ k, roleOf s' k = if k ∈ write.targets then some write.role else roleOf s k) : write.Performed s s' := by
  refine ⟨fun k hk => ?_, fun k hk => .inl ?_⟩
  · rw [h, if_pos hk]
  · rw [h, if_neg hk]

theorem roleOf_accountAdd (acls : MediatorACLSet) (queueLimit : Option ℕ) (k : String) :
    roleOf (accountAdd didHash acls queueLimit s).2 k = if k = didHash then some .standard else roleOf s k := by
  unfold roleOf
  rw [accountAdd_accounts]
  by_cases hk : k = didHash
  · rw [if_pos hk, if_pos hk]
    rfl
  · rw [if_neg hk, if_neg hk]

theorem performed_accountAdd (acls : MediatorACLSet) (queueLimit : Option ℕ) :
    (RoleWrite.mk [didHash] .standard).Performed s (accountAdd didHash acls queueLimit s).2 := by
  apply performed_of_roleOf
  intro k
  rw [roleOf_accountAdd]
  simp

theorem roleOf_accountSetRole (type : AccountType) (k : String) :
    roleOf (accountSetRole didHash type s).2 k = if k = didHash then some type else roleOf s k := by
  unfold roleOf
  rw [accountSetRole_accounts]
  by_cases hk : k = didHash <;> simp [hk]

theorem performed_changeRole (type : AccountType) :
    (RoleWrite.mk [didHash] type).Performed s (changeRole s didHash type) := by
  apply performed_of_roleOf
  intro k
  unfold roleOf
  rw [changeRole_accounts]
  by_cases hk : k = didHash <;> simp [hk]

theorem roleOf_foldl {f : MemoryState → String → MemoryState} {role : AccountType}
    (hf : ∀ st did k, roleOf (f st did) k = if k = did then some role else roleOf st k) (dids : List String)
    (k : String) : roleOf (dids.foldl f s) k = if k ∈ dids then some role else roleOf s k := by
  induction dids generalizing s with
  | nil => simp
  | cons did rest ih =>
    rw [foldl_cons, ih, hf]
    by_cases hrest : k ∈ rest <;> by_cases hk : k = did <;> simp [hrest, hk]

theorem performed_addAdminAccounts (dids : List String) (acls : MediatorACLSet) :
    (RoleWrite.mk dids .admin).Performed s (addAdminAccounts dids acls s).2 := by
  apply performed_of_roleOf
  refine roleOf_foldl s (fun st did k => ?_) dids
  unfold roleOf
  rw [setupAdminAccount_accounts]
  by_cases hk : k = did <;> simp [hk]

theorem performed_stripAdminAccounts (dids : List String) :
    (RoleWrite.mk dids .standard).Performed s (stripAdminAccounts dids s).2 := by
  apply performed_of_roleOf
  exact roleOf_foldl s (fun st did k => roleOf_accountSetRole st did .standard k) dids

theorem performed_upsertAccount {f : AccountRecord → AccountRecord} (hf : ∀ record, (f record).role = record.role) :
    RoleWrite.nothing.Performed s (s.upsertAccount didHash f) := by
  refine ⟨fun k hk => absurd hk not_mem_nil, fun k _ => ?_⟩
  unfold RoleKept roleOf
  rw [upsertAccount_accounts]
  by_cases hk : k = didHash
  · subst hk
    cases hrec : s.accounts k with
    | none => exact .inr ⟨rfl, by simp [hf]; rfl⟩
    | some record => exact .inl (by simp [hf])
  · exact .inl (by rw [if_neg hk])

theorem performed_setDidAcl (acls : MediatorACLSet) : RoleWrite.nothing.Performed s (setDidAcl didHash acls s).2 :=
  performed_upsertAccount (f := fun record => { record with acls }) s didHash fun _ => rfl

theorem performed_accountChangeQueueLimits (send receive : Option ℤ) :
    RoleWrite.nothing.Performed s (accountChangeQueueLimits didHash send receive s).2 :=
  performed_upsertAccount (f := fun record =>
    { record with
      queueSendLimit := changeLimit record.queueSendLimit send
      queueReceiveLimit := changeLimit record.queueReceiveLimit receive }) s didHash fun _ => rfl

end Roles

/-! ## What is protected -/

/-- The accounts the configuration names: the admin's and the mediator's. -/
def Configured (state : SharedData) (k : String) : Prop :=
  k = state.digest state.config.adminDid ∨ k = state.config.mediatorDidHash

/-- The root admins are the same, and the configured accounts are there with their role. -/
structure RootProtected (state : SharedData) (s s' : MemoryState) : Prop where
  rootAdmins : ∀ k, roleOf s' k = some .rootAdmin ↔ roleOf s k = some .rootAdmin
  configured : ∀ k, Configured state k → ∀ role, roleOf s k = some role → roleOf s' k = some role

/-- Writing `role` to `k` takes nothing away: `k` has it already, or no root admin and no configured
account is involved. -/
def Harmless (state : SharedData) (s : MemoryState) (role : AccountType) (k : String) : Prop :=
  roleOf s k = some role ∨
    role ≠ .rootAdmin ∧ roleOf s k ≠ some .rootAdmin ∧ (Configured state k → roleOf s k = none)

variable {framework : Framework} {state : SharedData} {session : Session} {metadata : UnpackMetadata}
  {s s' : MemoryState}

theorem RootProtected.harmless (h : RootProtected state s s') {write : RoleWrite} (hwrite : write.Performed s s')
    {k : String} (hk : k ∈ write.targets) : Harmless state s write.role k := by
  by_cases hsame : roleOf s k = some write.role
  · exact .inl hsame
  · have hnew := hwrite.written k hk
    have hroot := h.rootAdmins k
    rw [hnew] at hroot
    refine .inr ⟨fun hrole => hsame ?_, fun hold => hsame ?_, fun hconf => ?_⟩
    · rw [hroot.1 (by rw [hrole]), hrole]
    · rw [hroot.2 hold, hold]
    · cases hold : roleOf s k with
      | none => rfl
      | some role =>
        have := h.configured k hconf role hold
        rw [hnew] at this
        exact absurd (hold.trans this.symm) hsame

theorem rootProtected_of_harmless {write : RoleWrite} (hwrite : write.Performed s s')
    (h : ∀ k ∈ write.targets, Harmless state s write.role k) : RootProtected state s s' := by
  constructor
  · intro k
    by_cases hk : k ∈ write.targets
    · rw [hwrite.written k hk]
      rcases h k hk with hsame | ⟨hrole, hold, -⟩
      · rw [hsame]
      · simp [hrole, hold]
    · rcases hwrite.kept k hk with hkept | ⟨hold, hnew⟩
      · rw [hkept]
      · simp [hold, hnew]
  · intro k hconf role hold
    by_cases hk : k ∈ write.targets
    · rw [hwrite.written k hk]
      rcases h k hk with hsame | ⟨-, -, habsent⟩
      · rw [← hsame, hold]
      · rw [habsent hconf] at hold
        cases hold
    · rcases hwrite.kept k hk with hkept | ⟨habsent, -⟩
      · rw [hkept, hold]
      · rw [habsent] at hold
        cases hold

theorem rootProtected_iff_of_performed {write : RoleWrite} (hwrite : write.Performed s s') :
    RootProtected state s s' ↔ ∀ k ∈ write.targets, Harmless state s write.role k :=
  ⟨fun h _ hk => h.harmless hwrite hk, rootProtected_of_harmless hwrite⟩

theorem rootProtected_accountRemove {didHash : String} (hmed : state.config.mediatorDidHash ≠ didHash)
    (hadmin : state.digest state.config.adminDid ≠ didHash) (hrem : Removable s didHash) :
    RootProtected state s (accountRemove didHash s).2 := by
  have hok := accountRemove_of_removable hrem
  have hkeep : ∀ k, k ≠ didHash → roleOf (accountRemove didHash s).2 k = roleOf s k := by
    intro k hne
    unfold roleOf
    cases hrec : s.accounts k with
    | none => rw [accountRemove_absent hok hne hrec]
    | some record =>
      obtain ⟨record', hrec', hdr, -⟩ := accountRemove_drained hok hne hrec
      rw [hrec', Option.map_some, Option.map_some, hdr.role]
  constructor
  · intro k
    by_cases hk : k = didHash
    · subst hk
      have hgone : roleOf (accountRemove k s).2 k = none := by
        unfold roleOf
        rw [accountRemove_self hok, Option.map_none]
      have hold : roleOf s k ≠ some .rootAdmin := hrem.2
      simp [hgone, hold]
    · rw [hkeep k hk]
  · intro k hconf role hrole
    have hk : k ≠ didHash := by
      rintro rfl
      rcases hconf with rfl | rfl
      · exact hadmin rfl
      · exact hmed rfl
    rw [hkeep k hk, hrole]

/-! ## The three front ends -/

def Accounts.roleWrite : MediatorAccountRequest → RoleWrite
  | .accountAdd didHash _ => ⟨[didHash], .standard⟩
  | .accountChangeType didHash type => ⟨[didHash], type⟩
  | _ => .nothing

def Administration.roleWrite (state : SharedData) : MediatorAdminRequest → RoleWrite
  | .adminAdd dids => ⟨dids, .admin⟩
  | .adminStrip dids => ⟨strippable state dids, .standard⟩
  | _ => .nothing

def TrustTasks.roleWrite : TaskPayload → RoleWrite
  | .accountAdd did type _ => ⟨[did], type.toAccountType⟩
  | .accountChangeType did type => ⟨[did], type.toAccountType⟩
  | .adminAdd dids => ⟨dids, .admin⟩
  | .adminStrip dids => ⟨dids, .standard⟩
  | _ => .nothing

theorem Accounts.rootProtected_iff {senderKid : Option String} {request : MediatorAccountRequest}
    (hacc : Accounts.Accepts state session senderKid s request) :
    RootProtected state s (Accounts.effect state session s request) ↔
      ∀ k ∈ (roleWrite request).targets, Harmless state s (roleWrite request).role k := by
  cases request with
  | accountGet didHash
  | accountList cursor limit => exact rootProtected_iff_of_performed (performed_of_accounts_eq s rfl)
  | accountAdd didHash acls => exact rootProtected_iff_of_performed (performed_accountAdd s didHash _ none)
  | accountRemove didHash =>
    obtain ⟨-, hmed, hadmin, hrem⟩ := hacc
    exact iff_of_true (rootProtected_accountRemove hmed hadmin hrem) fun _ hk => absurd hk not_mem_nil
  | accountChangeType didHash type => exact rootProtected_iff_of_performed (performed_changeRole s didHash type)
  | accountChangeQueueLimits didHash send receive =>
    exact rootProtected_iff_of_performed (performed_accountChangeQueueLimits s didHash _ _)

theorem Administration.rootProtected_iff (request : MediatorAdminRequest) :
    RootProtected state s (effect state s request) ↔
      ∀ k ∈ (roleWrite state request).targets, Harmless state s (roleWrite state request).role k := by
  cases request with
  | adminAdd dids => exact rootProtected_iff_of_performed (performed_addAdminAccounts s dids _)
  | adminStrip dids => exact rootProtected_iff_of_performed (performed_stripAdminAccounts s _)
  | adminList cursor limit
  | auditLogList cursor limit
  | configuration => exact rootProtected_iff_of_performed (performed_of_accounts_eq s rfl)

theorem TrustTasks.performed_accountAdd (did : String) (type : WireType) (acl : Option MediatorAcl) :
    (RoleWrite.mk [did] type.toAccountType).Performed s (effect state session s (.accountAdd did type acl)) := by
  apply performed_of_roleOf
  intro k
  simp only [effect]
  split
  · rename_i htype
    subst htype
    rw [roleOf_accountAdd]
    simp [WireType.toAccountType]
  · rw [roleOf_accountSetRole, roleOf_accountAdd]
    by_cases hk : k = did <;> simp [hk]

theorem TrustTasks.rootProtected_iff {kid : String} {task : TrustTask}
    (hacc : Accepts framework state session kid s task) :
    RootProtected state s (effect state session s task.payload) ↔
      ∀ k ∈ (roleWrite task.payload).targets, Harmless state s (roleWrite task.payload).role k := by
  unfold Accepts at hacc
  generalize task.payload = payload at hacc ⊢
  cases payload with
  | accountAdd did type acl => exact rootProtected_iff_of_performed (TrustTasks.performed_accountAdd did type acl)
  | accountRemove did =>
    obtain ⟨-, -, hmed, hadmin, hrem⟩ := hacc
    exact iff_of_true (rootProtected_accountRemove hmed hadmin hrem) fun _ hk => absurd hk not_mem_nil
  | accountChangeType did type =>
      exact rootProtected_iff_of_performed (performed_changeRole s did type.toAccountType)
  | accountChangeQueueLimits did send receive =>
    exact rootProtected_iff_of_performed (performed_accountChangeQueueLimits s did _ _)
  | aclSet did acl => exact rootProtected_iff_of_performed (performed_setDidAcl s did _)
  | adminAdd dids => exact rootProtected_iff_of_performed (performed_addAdminAccounts s dids _)
  | adminStrip dids => exact rootProtected_iff_of_performed (performed_stripAdminAccounts s dids)
  | accessListAdd did entries => exact rootProtected_iff_of_performed (performed_of_accounts_eq s rfl)
  | accessListRemove did entries =>
    refine rootProtected_iff_of_performed (performed_of_accounts_eq s ?_)
    simp only [effect, Store.accessListRemove]
    cases s.accessLists did <;> rfl
  | accessListClear did => exact rootProtected_iff_of_performed (performed_of_accounts_eq s rfl)
  | _ => exact rootProtected_iff_of_performed (performed_of_accounts_eq s rfl)

/-- A message to one of the management front ends. -/
inductive Inbound
  | accounts (msg : Message MediatorAccountRequest)
  | administration (msg : Message MediatorAdminRequest)
  | trustTasks (msg : Message TrustTask)

namespace Inbound

def handle (framework : Framework) (state : SharedData) (session : Session) (metadata : UnpackMetadata) :
    Inbound → Handler Unit
  | accounts msg => (fun _ => ()) <$> Accounts.process msg state session metadata
  | administration msg => (fun _ => ()) <$> Administration.process msg state session metadata
  | trustTasks msg => (fun _ => ()) <$> TrustTasks.process framework msg state session metadata

/-- The role the message asks to be written. -/
def roleWrite (state : SharedData) : Inbound → RoleWrite
  | accounts msg => (msg.body.map Accounts.roleWrite).getD .nothing
  | administration msg => (msg.body.map (Administration.roleWrite state)).getD .nothing
  | trustTasks msg => (msg.body.map fun task => TrustTasks.roleWrite task.payload).getD .nothing

end Inbound

theorem RootProtected.of_withoutAudit {t t' : MemoryState} (h : withoutAudit t = withoutAudit t')
    (hp : RootProtected state s t) : RootProtected state s t' := by
  have hroles : roleOf t = roleOf t' := by
    have haccounts : (withoutAudit t).accounts = (withoutAudit t').accounts := by rw [h]
    exact congrArg (fun accounts k => (accounts k).map AccountRecord.role) haccounts
  constructor
  · rw [← hroles]
    exact hp.rootAdmins
  · rw [← hroles]
    exact hp.configured

theorem RootProtected.congr {t t' : MemoryState} (h : withoutAudit t = withoutAudit t') :
    RootProtected state s t ↔ RootProtected state s t' :=
  ⟨RootProtected.of_withoutAudit h, RootProtected.of_withoutAudit h.symm⟩

theorem exec_map_eq_ok {α β : Type} {g : α → β} {x : Handler α} {b : β} (h : exec (g <$> x) s = (.ok b, s')) :
    ∃ a, exec x s = (.ok a, s') := by
  rw [map_eq_pure_bind] at h
  obtain ⟨a, s₁, ha, hb⟩ := exec_bind_eq_ok_iff.1 h
  obtain ⟨-, rfl⟩ := exec_pure_eq_ok_iff.1 hb
  exact ⟨a, ha⟩

/-- An accepted message keeps the root admins and the configured accounts exactly where the role it
writes is harmless for each of its targets. -/
theorem rootProtected_iff_harmless {inbound : Inbound}
    (h : exec (inbound.handle framework state session metadata) s = (.ok (), s')) :
    RootProtected state s s' ↔
      ∀ k ∈ (inbound.roleWrite state).targets, Harmless state s (inbound.roleWrite state).role k := by
  cases inbound with
  | accounts msg =>
    obtain ⟨response, h⟩ := exec_map_eq_ok h
    obtain ⟨request, hbody⟩ := Accounts.body_of_process h
    obtain ⟨⟨-, hacc⟩, hobs⟩ := (Accounts.process_meets hbody).sound response s' h
    rw [RootProtected.congr hobs, Accounts.rootProtected_iff hacc]
    simp [Inbound.roleWrite, hbody]
  | administration msg =>
    obtain ⟨response, h⟩ := exec_map_eq_ok h
    obtain ⟨request, hbody⟩ := body_of_process h
    obtain ⟨-, hobs⟩ := (process_meets hbody).sound response s' h
    rw [RootProtected.congr hobs, rootProtected_iff request]
    simp [Inbound.roleWrite, hbody]
  | trustTasks msg =>
    obtain ⟨response, h⟩ := exec_map_eq_ok h
    obtain ⟨kid, task, hkid, hbody⟩ := TrustTasks.sender_and_body_of_process h
    obtain ⟨hacc, hobs⟩ := (TrustTasks.process_meets hkid hbody).sound response s' h
    rw [RootProtected.congr hobs, TrustTasks.rootProtected_iff hacc]
    simp [Inbound.roleWrite, hbody]

/-! ## A root admin demoted -/

section Demoted

def rootHash : String := "h:did:example:root"

def anna : Session := ⟨"s", "did:example:anna", "h:did:example:anna", .fromU64 0, .admin⟩

def signedByAnna : UnpackMetadata := ⟨none, some "did:example:anna#key-1"⟩

/-- The root admin of the configuration, and Anna, both stored as admins. -/
def adminStore : MemoryState :=
  { (default : MemoryState) with
    accounts := Function.update (Function.update (fun _ => none) rootHash
      (some { (default : AccountRecord) with role := .rootAdmin })) anna.didHash
      (some { (default : AccountRecord) with role := .admin })
    admins := {rootHash, anna.didHash} }

/-- A framework that takes every document. -/
def openFramework : Framework := ⟨fun _ _ _ => .ok (), fun _ _ _ _ => .ok none⟩

/-- `AdminAdd`, `AccountAdd` from a standard session and `admin/strip` each take the role from the
configured root admin. -/
theorem rootAdmin_demoted :
    anna.accountType ≠ .rootAdmin ∧ Configured plainState rootHash ∧
    roleOf adminStore rootHash = some .rootAdmin ∧
    (let out := exec (Inbound.handle openFramework plainState anna signedByAnna
        (.administration ⟨"m", some 1000, some (.adminAdd [rootHash])⟩)) adminStore
     out.1.isOk = true ∧ roleOf out.2 rootHash = some .admin) ∧
    (let out := exec (Inbound.handle openFramework plainState { anna with accountType := .standard } signedByAnna
        (.accounts ⟨"m", none, some (.accountAdd rootHash none)⟩)) adminStore
     out.1.isOk = true ∧ roleOf out.2 rootHash = some .standard) ∧
    (let out := exec (Inbound.handle openFramework plainState anna signedByAnna
        (.trustTasks ⟨"m", none, some ⟨"", .adminStrip [rootHash]⟩⟩)) adminStore
     out.1.isOk = true ∧ roleOf out.2 rootHash = some .standard) := by
  refine ⟨by decide, .inl rfl, ?_⟩
  decide +kernel

def promoteBob : Message MediatorAdminRequest := ⟨"m", some 1000, some (.adminAdd ["h:did:example:bob"])⟩

/-- Promoting somebody who is neither keeps both. -/
theorem rootProtected_promoteBob :
    ∃ s', exec (Inbound.handle openFramework plainState anna signedByAnna (.administration promoteBob)) adminStore =
        (.ok (), s') ∧ RootProtected plainState adminStore s' := by
  have hmeets : Meets withoutAudit (process promoteBob plainState anna signedByAnna) adminStore _ _ :=
    process_meets rfl
  obtain ⟨⟨⟩, s', h⟩ := (hmeets.map fun _ => ()).complete
    ⟨rfl, ⟨by decide, fun hblock => absurd hblock (by decide)⟩, trivial⟩
  change exec (Inbound.handle openFramework plainState anna signedByAnna (.administration promoteBob)) adminStore
    = _ at h
  refine ⟨s', h, (rootProtected_iff_harmless h).2 ?_⟩
  intro k hk
  obtain rfl : k = "h:did:example:bob" := mem_singleton.1 hk
  exact .inr ⟨by decide, by decide, fun _ => by decide⟩

end Demoted

end AffinidiTdk.Mediator
