/-
What each store operation does to the accounts: which records it writes, and how the deletion of
messages drains the queue counters of the accounts a message names.
-/
import AffinidiTdk.Store.Memory

namespace AffinidiTdk.Store

open Function Option MemoryState
open Acl

/-! ## One account -/

section Account

variable (st : MemoryState) (didHash : String)

theorem upsertAccount_accounts (f : AccountRecord → AccountRecord) (k : String) :
    (st.upsertAccount didHash f).accounts k =
      if k = didHash then some (f ((st.accounts didHash).getD default)) else st.accounts k := by
  simp [upsertAccount, update_apply]

theorem modifyAccount_accounts (f : AccountRecord → AccountRecord) (k : String) :
    (st.modifyAccount didHash f).accounts k =
      if k = didHash then (st.accounts didHash).map f else st.accounts k := by
  simp [modifyAccount, update_apply]

/-- The record `account_add` writes. -/
def newRecord (acls : MediatorACLSet) (queueLimit : Option ℕ) : AccountRecord :=
  { (default : AccountRecord) with
    acls
    queueSendLimit := queueLimit.map fun n : ℕ => asI32 n
    queueReceiveLimit := queueLimit.map fun n : ℕ => asI32 n }

theorem accountAdd_accounts (acls : MediatorACLSet) (queueLimit : Option ℕ) (k : String) :
    (accountAdd didHash acls queueLimit st).2.accounts k =
      if k = didHash then some (newRecord acls queueLimit) else st.accounts k := by
  simp [accountAdd, newRecord, update_apply]

theorem accountSetRole_accounts (accountType : AccountType) (k : String) :
    (accountSetRole didHash accountType st).2.accounts k =
      if k = didHash then some { (st.accounts didHash).getD default with role := accountType }
      else st.accounts k :=
  upsertAccount_accounts st didHash (fun record => { record with role := accountType }) k

theorem setupAdminAccount_accounts (adminType : AccountType) (acls : MediatorACLSet) (k : String) :
    (setupAdminAccount didHash adminType acls st).2.accounts k =
      if k = didHash then some { (st.accounts didHash).getD (newRecord acls none) with role := adminType }
      else st.accounts k := by
  unfold setupAdminAccount
  dsimp only
  rw [modifyAccount_accounts]
  cases hacc : st.accounts didHash with
  | none => by_cases hk : k = didHash <;> simp [accountAdd_accounts, hk]
  | some record => simp [hacc]

/-- The store's own record says that the account is an admin. -/
def StoredAdmin : Prop :=
  didHash ∈ st.admins ∧ ((st.accounts didHash).map AccountRecord.role = some .admin ∨
    (st.accounts didHash).map AccountRecord.role = some .rootAdmin)

instance : Decidable (StoredAdmin st didHash) := inferInstanceAs (Decidable (_ ∧ (_ ∨ _)))

theorem checkAdminAccount_eq : checkAdminAccount didHash st = (.ok (decide (StoredAdmin st didHash)), st) := by
  unfold checkAdminAccount
  split
  · rename_i hmem
    dsimp only
    congr 2
    rw [decide_eq_decide]
    exact ⟨fun h => ⟨hmem, h⟩, fun h => h.2⟩
  · rename_i hmem
    have hnot : ¬StoredAdmin st didHash := fun h => hmem h.1
    simp [hnot]

theorem accountSetRole_stripAdminAccounts (accountType : AccountType) :
    (accountSetRole didHash accountType (stripAdminAccounts [didHash] st).2).2 =
      (accountSetRole didHash accountType st).2 := by
  have hstd : AccountType.isAdmin .standard = false := rfl
  simp only [stripAdminAccounts, List.foldl_cons, List.foldl_nil, accountSetRole, upsertAccount,
    hstd, update_self, getD_some, update_idem, Bool.false_eq_true, if_false]
  congr 1
  split
  · ext x
    by_cases hx : x = didHash <;> simp [hx]
  · ext x
    simp

theorem setupAdminAccount_eq_setRole {record : AccountRecord} (hrec : st.accounts didHash = some record)
    {adminType : AccountType} (hadmin : adminType.isAdmin = true) (acls : MediatorACLSet) :
    setupAdminAccount didHash adminType acls st = (.ok (), (accountSetRole didHash adminType st).2) := by
  simp [setupAdminAccount, accountSetRole, upsertAccount, modifyAccount, hrec, hadmin]

/-- The change of a role, nothing where the role is already the one asked for. -/
def changeRole (accountType : AccountType) : MemoryState :=
  if (st.accounts didHash).map AccountRecord.role = some accountType then st
  else (accountSetRole didHash accountType st).2

theorem changeRole_accounts (accountType : AccountType) (k : String) :
    (changeRole st didHash accountType).accounts k =
      if k = didHash then some { (st.accounts didHash).getD default with role := accountType }
      else st.accounts k := by
  unfold changeRole
  split
  · rename_i hsame
    split
    · rename_i hk
      subst hk
      cases hrec : st.accounts k with
      | none => simp [hrec] at hsame
      | some record =>
        simp only [hrec, map_some, Option.some.injEq] at hsame
        simp [← hsame]
    · rfl
  · exact accountSetRole_accounts st didHash accountType k

theorem accessListRemove_eq_ok (hashes : List String) :
    ∃ n, accessListRemove didHash hashes st = (.ok n, (accessListRemove didHash hashes st).2) := by
  unfold accessListRemove
  cases st.accessLists didHash <;> exact ⟨_, rfl⟩

end Account

/-! ## Draining -/

/-- The record with messages taken out of its queues: counters may go down, nothing else moves. -/
structure Drained (r r' : AccountRecord) : Prop where
  role : r'.role = r.role
  acls : r'.acls = r.acls
  queueSendLimit : r'.queueSendLimit = r.queueSendLimit
  queueReceiveLimit : r'.queueReceiveLimit = r.queueReceiveLimit
  sendQueueCount : r'.sendQueueCount ≤ r.sendQueueCount
  sendQueueBytes : r'.sendQueueBytes ≤ r.sendQueueBytes
  receiveQueueCount : r'.receiveQueueCount ≤ r.receiveQueueCount
  receiveQueueBytes : r'.receiveQueueBytes ≤ r.receiveQueueBytes

theorem Drained.refl (r : AccountRecord) : Drained r r :=
  ⟨rfl, rfl, rfl, rfl, le_rfl, le_rfl, le_rfl, le_rfl⟩

theorem Drained.trans {a b c : AccountRecord} (hab : Drained a b) (hbc : Drained b c) : Drained a c :=
  ⟨hbc.role.trans hab.role, hbc.acls.trans hab.acls, hbc.queueSendLimit.trans hab.queueSendLimit,
    hbc.queueReceiveLimit.trans hab.queueReceiveLimit, hbc.sendQueueCount.trans hab.sendQueueCount,
    hbc.sendQueueBytes.trans hab.sendQueueBytes, hbc.receiveQueueCount.trans hab.receiveQueueCount,
    hbc.receiveQueueBytes.trans hab.receiveQueueBytes⟩

theorem drained_dropSent (r : AccountRecord) (bytes : ℕ) : Drained r (r.dropSent bytes) :=
  ⟨rfl, rfl, rfl, rfl, Nat.sub_le .., Nat.sub_le .., le_rfl, le_rfl⟩

theorem drained_dropReceived (r : AccountRecord) (bytes : ℕ) : Drained r (r.dropReceived bytes) :=
  ⟨rfl, rfl, rfl, rfl, le_rfl, le_rfl, Nat.sub_le .., Nat.sub_le ..⟩

/-- The accounts a message counts for. -/
def MessageRecord.Names (record : MessageRecord) (didHash : String) : Prop :=
  record.toDidHash = didHash ∨ record.fromDidHash = some didHash

section Messages

variable (st : MemoryState)

@[simp] theorem incrCounter_accounts (key : String) (n : ℤ) : (st.incrCounter key n).accounts = st.accounts := rfl

@[simp] theorem incrCounter_messages (key : String) (n : ℤ) : (st.incrCounter key n).messages = st.messages := rfl

@[simp] theorem unindexExpiry_accounts (expiresAt : ℕ) (msgId : String) :
    (st.unindexExpiry expiresAt msgId).accounts = st.accounts := by
  unfold unindexExpiry
  split <;> rfl

@[simp] theorem unindexExpiry_messages (expiresAt : ℕ) (msgId : String) :
    (st.unindexExpiry expiresAt msgId).messages = st.messages := by
  unfold unindexExpiry
  split <;> rfl

theorem removeMessage_messages (messageHash : String) (record : MessageRecord) :
    (st.removeMessage messageHash record).messages = update st.messages messageHash none := by
  unfold removeMessage
  split <;> simp [modifyAccount]

theorem removeMessage_accounts (messageHash : String) (record : MessageRecord) (k : String) :
    (st.removeMessage messageHash record).accounts k =
      let sent := if record.fromDidHash = some k ∧ record.sendId.isSome
        then (st.accounts k).map fun account => account.dropSent record.bytes else st.accounts k
      if k = record.toDidHash then sent.map fun account => account.dropReceived record.bytes else sent := by
  unfold removeMessage
  dsimp only
  rw [incrCounter_accounts, incrCounter_accounts, unindexExpiry_accounts, modifyAccount_accounts]
  rcases hfrom : record.fromDidHash with _ | sender
  · by_cases hk : k = record.toDidHash <;> simp [hk]
  · rcases hsend : record.sendId with _ | sid
    · by_cases hk : k = record.toDidHash <;> simp [hk]
    · simp only [modifyAccount_accounts, Option.some.injEq, isSome_some, and_true]
      by_cases hk : k = record.toDidHash
      · subst hk
        by_cases hs : record.toDidHash = sender
        · simp [hs]
        · simp [hs, Ne.symm hs]
      · by_cases hs : k = sender
        · subst hs
          simp [hk]
        · simp [hk, hs, Ne.symm hs]

theorem removeMessage_drained (messageHash : String) (record : MessageRecord) {k : String} {r : AccountRecord}
    (hk : st.accounts k = some r) :
    ∃ r', (st.removeMessage messageHash record).accounts k = some r' ∧ Drained r r' ∧
      (¬record.Names k → r' = r) := by
  rw [removeMessage_accounts]
  by_cases hfrom : record.fromDidHash = some k ∧ record.sendId.isSome = true
  · have hnames : record.Names k := .inr hfrom.1
    by_cases hto : k = record.toDidHash
    · refine ⟨(r.dropSent record.bytes).dropReceived record.bytes, ?_,
        (drained_dropSent r _).trans (drained_dropReceived _ _), fun h => absurd hnames h⟩
      dsimp only
      rw [if_pos hfrom, if_pos hto, hk, map_some, map_some]
    · refine ⟨r.dropSent record.bytes, ?_, drained_dropSent r _, fun h => absurd hnames h⟩
      dsimp only
      rw [if_pos hfrom, if_neg hto, hk, map_some]
  · by_cases hto : k = record.toDidHash
    · refine ⟨r.dropReceived record.bytes, ?_, drained_dropReceived r _, fun h => absurd (.inl hto.symm) h⟩
      dsimp only
      rw [if_neg hfrom, if_pos hto, hk, map_some]
    · refine ⟨r, ?_, Drained.refl r, fun _ => rfl⟩
      dsimp only
      rw [if_neg hfrom, if_neg hto, hk]

end Messages

variable {k : String} {r : AccountRecord}

theorem purgeLoop_drained (owner : String) (msgIds : List String) (st : MemoryState)
    (hk : st.accounts k = some r) : ∃ r', (purgeLoop owner msgIds st).2.accounts k = some r' ∧ Drained r r' ∧
    ((∀ id ∈ msgIds, ∀ record, st.messages id = some record → ¬record.Names k) → r' = r) := by
  induction msgIds generalizing st r with
  | nil => exact ⟨r, hk, Drained.refl r, fun _ => rfl⟩
  | cons id rest ih =>
    simp only [purgeLoop]
    cases hmsg : st.messages id with
    | none =>
      obtain ⟨r', hr', hdr, hsame⟩ := ih st hk
      refine ⟨r', ?_, hdr, fun h => hsame fun id hid => h id (List.mem_cons_of_mem _ hid)⟩
      simpa [deleteMessage, hmsg] using hr'
    | some record =>
      by_cases hperm : deleteMessagePermitted (.owner owner) record.toDidHash record.fromDidHash = true
      · obtain ⟨r₁, hr₁, hdr₁, hsame₁⟩ := removeMessage_drained st id record hk
        obtain ⟨r', hr', hdr', hsame'⟩ := ih (st.removeMessage id record) hr₁
        refine ⟨r', ?_, hdr₁.trans hdr', fun h => ?_⟩
        · simpa [deleteMessage, hmsg, hperm] using hr'
        · -- a message still stored after the removal was stored before it
          have hrest := hsame' fun id' hid' record' hrec => by
            rw [removeMessage_messages, update_apply] at hrec
            split at hrec
            · cases hrec
            · exact h id' (List.mem_cons_of_mem _ hid') record' hrec
          rw [hrest, hsame₁ (h id List.mem_cons_self record hmsg)]
      · obtain ⟨r', hr', hdr, hsame⟩ := ih st hk
        refine ⟨r', ?_, hdr, fun h => hsame fun id hid => h id (List.mem_cons_of_mem _ hid)⟩
        simpa [deleteMessage, hmsg, hperm] using hr'

theorem purgeLoop_absent (owner : String) (msgIds : List String) (st : MemoryState) (hk : st.accounts k = none) :
    (purgeLoop owner msgIds st).2.accounts k = none := by
  induction msgIds generalizing st with
  | nil => exact hk
  | cons id rest ih =>
    simp only [purgeLoop, deleteMessage]
    cases hmsg : st.messages id with
    | none => exact ih st hk
    | some record =>
      by_cases hperm : deleteMessagePermitted (.owner owner) record.toDidHash record.fromDidHash = true
      · simp only [hperm, Bool.not_true, Bool.false_eq_true, if_false]
        apply ih
        rw [removeMessage_accounts, hk]
        simp
      · simp only [hperm, Bool.not_false, if_true]
        exact ih st hk

/-! ## Removal of an account -/

/-- Some message listed in the inbox of `owner` counts for the account `k`. -/
def InboxNames (st : MemoryState) (owner k : String) : Prop :=
  ∃ stream entry record, st.inbox owner = some stream ∧ entry ∈ stream.values ∧
    st.messages entry.msgId = some record ∧ record.Names k

/-- The account, if it is there, has no protected role. -/
def Removable (st : MemoryState) (didHash : String) : Prop :=
  (st.accounts didHash).map AccountRecord.role ≠ some .mediator ∧
    (st.accounts didHash).map AccountRecord.role ≠ some .rootAdmin

variable {st st' : MemoryState} {didHash : String} {removed : Bool}

theorem removable_of_accountRemove (h : accountRemove didHash st = (.ok removed, st')) : Removable st didHash := by
  unfold accountRemove at h
  split at h
  · cases h
  · cases h
  · rename_i hmed hroot
    exact ⟨hmed, hroot⟩

theorem accountRemove_of_removable (h : Removable st didHash) : accountRemove didHash st =
    (.ok true, (accountRemove didHash st).2) := by
  unfold accountRemove
  split
  · rename_i hmed
    exact absurd hmed h.1
  · rename_i hroot
    exact absurd hroot h.2
  · rfl

section

variable (h : accountRemove didHash st = (.ok removed, st'))
include h

theorem accountRemove_drained (hne : k ≠ didHash) (hk : st.accounts k = some r) : ∃ r', st'.accounts k = some r' ∧
    Drained r r' ∧ (¬InboxNames st didHash k → r' = r) := by
  unfold accountRemove at h
  split at h
  · cases h
  · cases h
  · cases h
    dsimp only
    rw [update_of_ne hne]
    unfold purgeFolder
    dsimp only [deleteFolderStream, folderStream, setDidAcl]
    have hk' : (accounts
        { st.upsertAccount didHash fun record => { record with acls := (default : MediatorACLSet).setBlocked true }
          with outbox := update st.outbox didHash none }) k = some r := by
      dsimp only
      rw [upsertAccount_accounts, if_neg hne, hk]
    obtain ⟨r', hr', hdr, hsame⟩ := purgeLoop_drained didHash
      (((st.inbox didHash).map fun s => s.values.map StreamEntry.msgId).getD []) _ hk'
    refine ⟨r', hr', hdr, fun hno => hsame fun id hid record hrec hnames => hno ?_⟩
    cases hstream : st.inbox didHash with
    | none => simp [hstream] at hid
    | some stream =>
      simp only [hstream, map_some, getD_some, List.mem_map] at hid
      obtain ⟨entry, hentry, rfl⟩ := hid
      exact ⟨stream, entry, record, hstream, hentry, hrec, hnames⟩

theorem accountRemove_absent (hne : k ≠ didHash) (hk : st.accounts k = none) : st'.accounts k = none := by
  unfold accountRemove at h
  split at h
  · cases h
  · cases h
  · cases h
    dsimp only
    rw [update_of_ne hne]
    unfold purgeFolder
    dsimp only [deleteFolderStream, folderStream, setDidAcl]
    apply purgeLoop_absent
    dsimp only
    rw [upsertAccount_accounts, if_neg hne, hk]

theorem accountRemove_self : st'.accounts didHash = none := by
  unfold accountRemove at h
  split at h
  · cases h
  · cases h
  · cases h
    simp

end

end AffinidiTdk.Store
