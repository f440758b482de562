/-
Runs of the message calls of the in-memory store. Fetching, purging and sweeping are sequences of
deletions with a clean-up at the end, and what is cleaned up is empty by then.
-/
import AffinidiTdk.Store.Consistency

namespace AffinidiTdk.Store

open Function List Option DeletionAuthority MemoryState
open Acl

/-! ## Sequences of deletions -/

/-- Deletions one after the other, failures ignored. -/
def deleteAll (deletions : List (String × DeletionAuthority)) (st : MemoryState) : MemoryState :=
  deletions.foldl (fun st d => (deleteMessage d.1 d.2 st).2) st

theorem purgeLoop_state (didHash : String) (ids : List String) (st : MemoryState) :
    (purgeLoop didHash ids st).2 = deleteAll (ids.map fun m => (m, .owner didHash)) st := by
  induction ids generalizing st with
  | nil => rfl
  | cons m ids ih =>
    simp only [purgeLoop, deleteAll, map_cons, foldl_cons]
    split
    · rename_i st' hdelete
      simp only [hdelete]
      exact ih st'
    · rename_i st' hdelete
      simp only [hdelete]
      exact ih st'

theorem fetchLoop_state (didHash : String) (entries : List (StreamId × StreamEntry)) (st : MemoryState) :
    (fetchLoop didHash true entries st).2 = deleteAll (entries.map fun e => (e.2.msgId, .owner didHash)) st := by
  induction entries generalizing st with
  | nil => rfl
  | cons e entries ih =>
    obtain ⟨sid, entry⟩ := e
    simp only [fetchLoop, deleteAll, map_cons, foldl_cons, if_true]
    split
    · rename_i st' hdelete
      simp only [hdelete]
      exact ih st'
    · rename_i st' hdelete
      simp only [hdelete]
      exact ih st'

theorem fetchLoop_keeps (didHash : String) (entries : List (StreamId × StreamEntry)) (st : MemoryState) :
    (fetchLoop didHash false entries st).2 = st := by
  induction entries with
  | nil => rfl
  | cons e entries ih => simpa only [fetchLoop, Bool.false_eq_true, if_false] using ih

theorem sweepSlot_state (adminDidHash : String) (ids : List String) (st : MemoryState) :
    (sweepSlot adminDidHash ids st).2 = deleteAll (ids.map fun m => (m, .admin adminDidHash)) st := by
  induction ids generalizing st with
  | nil => rfl
  | cons m ids ih =>
    simp only [sweepSlot, deleteAll, map_cons, foldl_cons]
    split
    · rename_i st' hdelete
      simp only [hdelete]
      exact ih st'
    · rename_i st' hdelete
      simp only [hdelete]
      exact ih st'

section

variable {digest : String → String} {st : MemoryState}

theorem Kept.after_deleteAll (h : Kept digest st) (deletions : List (String × DeletionAuthority)) :
    Kept digest (deleteAll deletions st) := by
  induction deletions generalizing st with
  | nil => exact h
  | cons d deletions ih => exact ih (h.delete d.1 d.2)

variable {r : MessageRecord}

theorem deleteMessage_messages {messageHash : String} {authority : DeletionAuthority} {m : String}
    (hm : (deleteMessage messageHash authority st).2.messages m = some r) : st.messages m = some r ∧
    (m = messageHash → deleteMessagePermitted authority r.toDidHash r.fromDidHash = false) := by
  unfold deleteMessage at hm
  cases hrecord : st.messages messageHash with
  | none =>
    simp only [hrecord] at hm
    refine ⟨hm, ?_⟩
    rintro rfl
    simp [hrecord] at hm
  | some record =>
    simp only [hrecord] at hm
    split at hm
    · rename_i hnot
      refine ⟨hm, ?_⟩
      rintro rfl
      cases hrecord.symm.trans hm
      simpa using hnot
    · rw [removeMessage_messages] at hm
      by_cases hmm : m = messageHash
      · simp [hmm] at hm
      · rw [update_of_ne hmm] at hm
        exact ⟨hm, fun heq => absurd heq hmm⟩

variable {deletions : List (String × DeletionAuthority)}

theorem deleteAll_messages {m : String} (hm : (deleteAll deletions st).messages m = some r) : st.messages m =
    some r ∧ ∀ authority, (m, authority) ∈ deletions → deleteMessagePermitted authority r.toDidHash r.fromDidHash =
    false := by
  induction deletions generalizing st with
  | nil => exact ⟨hm, by simp⟩
  | cons d deletions ih =>
    obtain ⟨hmid, hrest⟩ := ih hm
    obtain ⟨hold, hfirst⟩ := deleteMessage_messages hmid
    refine ⟨hold, ?_⟩
    intro authority hmem
    rcases mem_cons.1 hmem with rfl | hmem
    · exact hfirst rfl
    · exact hrest authority hmem

/-- Messages may have gone and ids may have been taken. -/
structure Recedes (st st' : MemoryState) : Prop where
  messages : ∀ m r, st'.messages m = some r → st.messages m = some r
  lastId : st.lastId ≤ st'.lastId

variable {st' : MemoryState}

theorem Recedes.trans {st st'' : MemoryState} (h : Recedes st st') (h' : Recedes st' st'') : Recedes st st'' :=
  ⟨fun m r hm => h.messages m r (h'.messages m r hm), h.lastId.trans h'.lastId⟩

theorem recedes_delete (messageHash : String) (authority : DeletionAuthority) (st : MemoryState) :
    Recedes st (deleteMessage messageHash authority st).2 := by
  refine ⟨fun m r hm => (deleteMessage_messages hm).1, ?_⟩
  unfold deleteMessage
  split
  · exact le_rfl
  · split
    · exact le_rfl
    · exact (lastId_removeMessage _ _ _).ge

theorem recedes_deleteAll (deletions : List (String × DeletionAuthority)) (st : MemoryState) :
    Recedes st (deleteAll deletions st) := by
  induction deletions generalizing st with
  | nil => exact ⟨fun _ _ hm => hm, le_rfl⟩
  | cons d deletions ih => exact (recedes_delete d.1 d.2 st).trans (ih _)

theorem recedes_purge (didHash : String) (folder : Folder) (st : MemoryState) :
    Recedes st (purgeFolder didHash folder st).2 := by
  simp only [purgeFolder, purgeLoop_state]
  refine (recedes_deleteAll
    ((((folderStream folder st didHash).map fun s => s.values.map StreamEntry.msgId).getD []).map
    fun m => (m, owner didHash)) st).trans ?_
  cases folder <;> exact ⟨fun _ _ hm => hm, le_rfl⟩

theorem recedes_fetch (didHash : String) (options : FetchOptions) (st : MemoryState) :
    Recedes st (fetchMessages didHash options st).2 := by
  simp only [fetchMessages]
  cases hpolicy : decide (options.deletePolicy = .optimistic) with
  | true =>
    rw [fetchLoop_state]
    exact recedes_deleteAll _ _
  | false =>
    rw [fetchLoop_keeps]
    exact ⟨fun _ _ hm => hm, le_rfl⟩

theorem recedes_sweepSlots (adminDidHash : String) (due : List (ℕ × List String)) (st : MemoryState) :
    Recedes st (sweepSlots adminDidHash due st).2 := by
  induction due generalizing st with
  | nil => exact ⟨fun _ _ hm => hm, le_rfl⟩
  | cons d due ih =>
    obtain ⟨slot, ids⟩ := d
    refine Recedes.trans ?_ (ih _)
    rw [sweepSlot_state]
    have hrecedes := recedes_deleteAll (ids.map fun m => (m, admin adminDidHash)) st
    exact ⟨hrecedes.messages, hrecedes.lastId⟩

/-! ## Purging, fetching and sweeping -/

theorem Kept.congr (h : Kept digest st) (hmessages : st'.messages = st.messages)
    (hinbox : st'.inboxOf = st.inboxOf) (houtbox : st'.outboxOf = st.outboxOf)
    (hexpiry : ∀ slot m, m ∈ st'.expiry slot ↔ m ∈ st.expiry slot)
    (hqueues : ∀ did, (st'.account did).queues = (st.account did).queues) (hcounters : st'.counters = st.counters)
    (hlast : st'.lastId = st.lastId) : Kept digest st' := by
  constructor
  · rw [hmessages, hinbox]
    exact h.inbox
  · rw [hmessages, houtbox]
    exact h.outbox
  · intro slot m
    rw [hexpiry, hmessages]
    exact h.expiry slot m
  · intro did
    rw [hqueues, hinbox, houtbox]
    exact h.queues did
  · obtain ⟨ids, hids, hcount, hbytes⟩ := h.balanced
    refine ⟨ids, ?_, ?_, ?_⟩
    · rwa [hmessages]
    · rwa [hcounters]
    · simp only [bytesOf, hmessages, hcounters]
      exact hbytes
  · rw [hmessages]
    exact h.sent
  · rw [hinbox, hlast]
    exact h.inbox_le
  · rw [houtbox, hlast]
    exact h.outbox_le
  · rw [hmessages]
    exact h.named

variable {didHash : String}

theorem deleteAll_empties {place : MessageRecord → Option (String × StreamId)}
    {entry : String → MessageRecord → StreamEntry} {index index' : String → OrdMap StreamId StreamEntry}
    (h : Indexes st.messages place entry index) (h' : Indexes (deleteAll deletions st).messages place entry index')
    (hentry : ∀ m r, (entry m r).msgId = m)
    (howner : ∀ r sid, place r = some (didHash, sid) → deleteMessagePermitted (.owner didHash) r.toDidHash
    r.fromDidHash = true) (hdeletions : ∀ e ∈ (index didHash).entries, (e.2.msgId, .owner didHash) ∈ deletions) :
    index' didHash = .empty := by
  have hnone : ∀ e, e ∉ (index' didHash).entries := by
    rintro ⟨sid, e⟩ he
    obtain ⟨m, r, hm, hplace, rfl⟩ := (h' didHash sid e).1 he
    obtain ⟨hold, hrefused⟩ := deleteAll_messages hm
    have hmem : (m, owner didHash) ∈ deletions := by
      have := hdeletions _ (h.mem hold hplace)
      rwa [hentry] at this
    have hfalse := hrefused _ hmem
    rw [howner r sid hplace] at hfalse
    cases hfalse
  have hnil : (index' didHash).entries = [] := eq_nil_iff_forall_not_mem.2 hnone
  cases hindex : index' didHash with
  | mk entries sorted =>
    rw [hindex] at hnil
    simp only at hnil
    subst hnil
    rfl

theorem deleteMessagePermitted_outbox {sid : StreamId} (hplace : r.outboxPlace = some (didHash, sid)) :
    deleteMessagePermitted (.owner didHash) r.toDidHash r.fromDidHash = true := by
  unfold MessageRecord.outboxPlace at hplace
  cases hfrom : r.fromDidHash with
  | none => simp [hfrom] at hplace
  | some sender =>
    cases hsend : r.sendId with
    | none => simp [hfrom, hsend] at hplace
    | some s =>
      obtain ⟨rfl, -⟩ : sender = didHash ∧ s = sid := by simpa [hfrom, hsend] using hplace
      simp [deleteMessagePermitted]

theorem mem_purgeIds {folder : Folder} {e : StreamId × StreamEntry}
    (he : e ∈ ((folderStream folder st didHash).getD .empty).entries) :
    (e.2.msgId, owner didHash) ∈
    (((folderStream folder st didHash).map fun s => s.values.map StreamEntry.msgId).getD []).map fun m =>
    (m, owner didHash) := by
  refine mem_map_of_mem ?_
  cases hstream : folderStream folder st didHash with
  | none =>
    rw [hstream] at he
    cases he
  | some stream =>
    rw [hstream] at he
    exact mem_map_of_mem (mem_map_of_mem he)

theorem Kept.purge (h : Kept digest st) (didHash : String) (folder : Folder) :
    Kept digest (purgeFolder didHash folder st).2 := by
  simp only [purgeFolder, purgeLoop_state]
  have hkept := h.after_deleteAll
    ((((folderStream folder st didHash).map fun s => s.values.map StreamEntry.msgId).getD []).map
    fun m => (m, owner didHash))
  cases folder with
  | inbox =>
    have hempty := deleteAll_empties h.inbox hkept.inbox (fun _ _ => rfl)
      (fun r sid hplace => by
        cases hplace
        simp [deleteMessagePermitted])
      (fun e he => mem_purgeIds he)
    refine hkept.congr rfl ?_ rfl (fun _ _ => Iff.rfl) (fun _ => rfl) rfl rfl
    funext did
    by_cases hdid : did = didHash
    · subst hdid
      rw [hempty]
      simp [deleteFolderStream, inboxOf]
    · simp [deleteFolderStream, inboxOf, hdid]
  | outbox =>
    have hempty := deleteAll_empties h.outbox hkept.outbox (fun _ _ => rfl)
      (fun r sid hplace => deleteMessagePermitted_outbox hplace) (fun e he => mem_purgeIds he)
    refine hkept.congr rfl rfl ?_ (fun _ _ => Iff.rfl) (fun _ => rfl) rfl rfl
    funext did
    by_cases hdid : did = didHash
    · subst hdid
      rw [hempty]
      simp [deleteFolderStream, outboxOf]
    · simp [deleteFolderStream, outboxOf, hdid]

theorem Kept.fetch (h : Kept digest st) (didHash : String) (options : FetchOptions) :
    Kept digest (fetchMessages didHash options st).2 := by
  simp only [fetchMessages]
  cases hpolicy : decide (options.deletePolicy = .optimistic) with
  | true =>
    rw [fetchLoop_state]
    exact h.after_deleteAll _
  | false =>
    rw [fetchLoop_keeps]
    exact h

theorem Kept.after_sweepSlot (h : Kept digest st) (adminDidHash : String) {slot : ℕ} {ids : List String}
    (hids : ∀ m ∈ st.expiry slot, m ∈ ids) :
    Kept digest { (sweepSlot adminDidHash ids st).2 with
      expiry := update (sweepSlot adminDidHash ids st).2.expiry slot ∅ } := by
  rw [sweepSlot_state]
  have hkept := h.after_deleteAll (ids.map fun m => (m, admin adminDidHash))
  have hempty : ∀ m, m ∉
    (deleteAll (ids.map fun m => (m, admin adminDidHash)) st).expiry slot := by
    intro m hm
    obtain ⟨hslot, r, hr, hexpires⟩ := (hkept.expiry slot m).1 hm
    obtain ⟨hold, hrefused⟩ := deleteAll_messages hr
    have hmem : m ∈ ids := hids m ((h.expiry slot m).2 ⟨hslot, r, hold, hexpires⟩)
    have hfalse := hrefused (.admin adminDidHash) (mem_map_of_mem hmem)
    cases hfalse
  refine hkept.congr rfl rfl rfl ?_ (fun _ => rfl) rfl rfl
  intro slot' m
  by_cases hslot : slot' = slot
  · subst hslot
    simp [hempty m]
  · simp [hslot]

theorem Kept.after_sweepSlots (h : Kept digest st) (adminDidHash : String) (due : List (ℕ × List String))
    (hdue : ∀ d ∈ due, ∀ m ∈ st.expiry d.1, m ∈ d.2) : Kept digest (sweepSlots adminDidHash due st).2 := by
  induction due generalizing st with
  | nil => exact h
  | cons d due ih =>
    obtain ⟨slot, ids⟩ := d
    refine ih (h.after_sweepSlot adminDidHash (hdue _ mem_cons_self)) ?_
    -- later slots can only have lost messages in between
    intro d hd m hm
    refine hdue d (mem_cons_of_mem _ hd) m ?_
    have hkept := h.after_sweepSlot adminDidHash (hdue _ mem_cons_self)
    obtain ⟨hslot, r, hr, hexpires⟩ := (hkept.expiry d.1 m).1 hm
    rw [sweepSlot_state] at hr
    exact (h.expiry d.1 m).2 ⟨hslot, r, (deleteAll_messages hr).1, hexpires⟩

theorem Kept.sweep (h : Kept digest st) (nowSecs : ℕ) (adminDidHash : String) :
    Kept digest (sweepExpiredMessages nowSecs adminDidHash st).2 := by
  refine h.after_sweepSlots adminDidHash _ ?_
  rintro d hd m hm
  obtain ⟨slot, -, rfl⟩ := mem_map.1 hd
  exact (Finset.mem_sort _).2 hm

theorem Kept.after_upsert (h : Kept digest st) (didHash : String) (f : AccountRecord → AccountRecord)
    (hf : ∀ record, (f record).queues = record.queues) : Kept digest (st.upsertAccount didHash f) := by
  refine h.congr rfl rfl rfl (fun _ _ => Iff.rfl) ?_ rfl rfl
  intro did
  simp only [account, upsertAccount_accounts]
  by_cases hdid : did = didHash
  · subst hdid
    simp [hf]
  · simp [hdid]

end

/-! ## Runs -/

/-- A call on the messages or on what else an account record holds. -/
inductive MessageCall
  | store (nowMs : ℕ) (message toDidHash : String) (fromHash : Option String) (expiresAt : ℕ)
  | delete (messageHash : String) (authority : DeletionAuthority)
  | fetch (didHash : String) (options : FetchOptions)
  | purge (didHash : String) (folder : Folder)
  | sweep (nowSecs : ℕ) (adminDidHash : String)
  | setAcl (didHash : String) (acls : MediatorACLSet)
  | setRole (didHash : String) (accountType : AccountType)
  | changeQueueLimits (didHash : String) (sendQueueLimit receiveQueueLimit : Option ℤ)

def MessageCall.exec (digest : String → String) (st : MemoryState) : MessageCall → MemoryState
  | store nowMs message toDidHash fromHash expiresAt =>
    (storeMessage digest nowMs message toDidHash fromHash expiresAt st).2
  | delete messageHash authority => (deleteMessage messageHash authority st).2
  | fetch didHash options => (fetchMessages didHash options st).2
  | purge didHash folder => (purgeFolder didHash folder st).2
  | sweep nowSecs adminDidHash => (sweepExpiredMessages nowSecs adminDidHash st).2
  | setAcl didHash acls => (setDidAcl didHash acls st).2
  | setRole didHash accountType => (accountSetRole didHash accountType st).2
  | changeQueueLimits didHash sendQueueLimit receiveQueueLimit =>
    (accountChangeQueueLimits didHash sendQueueLimit receiveQueueLimit st).2

variable {digest : String → String} {st : MemoryState}

theorem MessageCall.recedes {call : MessageCall}
    (hcall : ∀ nowMs message toDidHash fromHash expiresAt, call ≠ .store nowMs message toDidHash fromHash
    expiresAt) : Recedes st (call.exec digest st) := by
  cases call with
  | store nowMs message toDidHash fromHash expiresAt => exact absurd rfl (hcall _ _ _ _ _)
  | delete messageHash authority => exact recedes_delete messageHash authority st
  | fetch didHash options => exact recedes_fetch didHash options st
  | purge didHash folder => exact recedes_purge didHash folder st
  | sweep nowSecs adminDidHash => exact recedes_sweepSlots adminDidHash _ st
  | setAcl didHash acls | setRole didHash accountType
  | changeQueueLimits didHash sendQueueLimit receiveQueueLimit => exact ⟨fun _ _ hm => hm, le_rfl⟩

theorem MessageCall.exec_lastId (digest : String → String) (st : MemoryState) (call : MessageCall) :
    st.lastId ≤ (call.exec digest st).lastId := by
  by_cases hstore : ∃ nowMs message toDidHash fromHash expiresAt,
      call = .store nowMs message toDidHash fromHash expiresAt
  · obtain ⟨nowMs, message, toDidHash, fromHash, expiresAt, rfl⟩ := hstore
    have hstores := storeMessage_stores digest nowMs message toDidHash fromHash expiresAt st
    exact (hstores.receiveId_gt.trans_le hstores.receiveId_le).le
  · exact (MessageCall.recedes fun _ _ _ _ _ heq => hstore ⟨_, _, _, _, _, heq⟩).lastId

variable {r : MessageRecord}

theorem MessageCall.exec_messages (call : MessageCall) {m : String}
    (hm : (call.exec digest st).messages m = some r) : st.messages m = some r ∨
    (st.lastId < r.receiveId ∧ r.receiveId ≤ (call.exec digest st).lastId) := by
  by_cases hstore : ∃ nowMs message toDidHash fromHash expiresAt,
      call = .store nowMs message toDidHash fromHash expiresAt
  · obtain ⟨nowMs, message, toDidHash, fromHash, expiresAt, rfl⟩ := hstore
    have hstores := storeMessage_stores digest nowMs message toDidHash fromHash expiresAt st
    change (storeMessage digest nowMs message toDidHash fromHash expiresAt st).2.messages m = some r at hm
    rw [hstores.messages] at hm
    by_cases hmm : m = digest message
    · subst hmm
      rw [update_self] at hm
      cases hm
      exact .inr ⟨hstores.receiveId_gt, hstores.receiveId_le⟩
    · rw [update_of_ne hmm] at hm
      exact .inl hm
  · exact .inl ((MessageCall.recedes fun _ _ _ _ _ heq => hstore ⟨_, _, _, _, _, heq⟩).messages m r hm)

/-- The body of a call to store is not stored yet. -/
def MessageCall.Fresh (st : MemoryState) (call : MessageCall) : Prop :=
  ∀ nowMs message toDidHash fromHash expiresAt, call = .store nowMs message toDidHash fromHash expiresAt →
    ∀ m r, st.messages m = some r → r.body ≠ message

/-- The states a store can be in: from the empty one, bodies fresh, counters within their range. -/
inductive Reached (digest : String → String) : MemoryState → Prop
  | start : Reached digest default
  | call {st : MemoryState} (h : Reached digest st) (call : MessageCall) (hfresh : call.Fresh st)
      (hcaps : (call.exec digest st).WithinCaps) : Reached digest (call.exec digest st)

theorem Kept.call (hdigest : Function.Injective digest) (h : Kept digest st) {call : MessageCall}
    (hfresh : call.Fresh st) (hcaps : (call.exec digest st).WithinCaps) : Kept digest (call.exec digest st) := by
  cases call with
  | store nowMs message toDidHash fromHash expiresAt =>
    have hstores : Stores (digest (storedRecord nowMs message toDidHash fromHash expiresAt st).body)
        (storedRecord nowMs message toDidHash fromHash expiresAt st) st
        (storeMessage digest nowMs message toDidHash fromHash expiresAt st).2 :=
      storeMessage_stores digest nowMs message toDidHash fromHash expiresAt st
    refine h.store hstores ?_ hcaps ?_
    · -- a stored message of this id would have this body
      change st.messages (digest message) = none
      cases hm : st.messages (digest message) with
      | none => rfl
      | some r => exact absurd (hdigest (h.named hm)).symm (hfresh _ _ _ _ _ rfl _ r hm)
    · simp [storedRecord]
  | delete messageHash authority => exact h.delete messageHash authority
  | fetch didHash options => exact h.fetch didHash options
  | purge didHash folder => exact h.purge didHash folder
  | sweep nowSecs adminDidHash => exact h.sweep nowSecs adminDidHash
  | setAcl didHash acls => exact h.after_upsert didHash (fun record => { record with acls }) fun _ => rfl
  | setRole didHash accountType =>
    have hkept := h.after_upsert didHash (fun record => { record with role := accountType }) fun _ => rfl
    exact hkept.congr rfl rfl rfl (fun _ _ => Iff.rfl) (fun _ => rfl) rfl rfl
  | changeQueueLimits didHash sendQueueLimit receiveQueueLimit =>
    exact h.after_upsert didHash (fun record => { record with
      queueSendLimit := changeLimit record.queueSendLimit sendQueueLimit
      queueReceiveLimit := changeLimit record.queueReceiveLimit receiveQueueLimit }) fun _ => rfl

theorem Kept.entry_of_call (hdigest : Function.Injective digest) (h : Kept digest st) {call : MessageCall}
    (hfresh : call.Fresh st) (hcaps : (call.exec digest st).WithinCaps) {didHash : String}
    {x : StreamId × StreamEntry} (hx : x ∈ ((call.exec digest st).inboxOf didHash).entries)
    (hle : x.1 ≤ st.lastId) : x ∈ (st.inboxOf didHash).entries := by
  obtain ⟨sid, e⟩ := x
  have hafter := h.call hdigest hfresh hcaps
  obtain ⟨m, r, hm, hplace, rfl⟩ := (hafter.inbox didHash sid e).1 hx
  rcases call.exec_messages hm with hold | ⟨hlt, -⟩
  · exact h.inbox.mem hold hplace
  · cases hplace
    exact absurd hle (not_le.2 hlt)

theorem Reached.kept (hdigest : Function.Injective digest) (h : Reached digest st) : Kept digest st := by
  induction h with
  | start => exact kept_default digest
  | call _ call hfresh hcaps ih => exact ih.call hdigest hfresh hcaps

/-- The folders, the expiry index and the counters, as the messages have them. -/
structure Consistent (st : MemoryState) : Prop where
  inbox : ∀ did sid m, (∃ e, (sid, e) ∈ (st.inboxOf did).entries ∧ e.msgId = m) ↔
    ∃ r, st.messages m = some r ∧ r.toDidHash = did ∧ r.receiveId = sid
  outbox : ∀ did sid m, (∃ e, (sid, e) ∈ (st.outboxOf did).entries ∧ e.msgId = m) ↔
    ∃ r, st.messages m = some r ∧ r.fromDidHash = some did ∧ r.sendId = some sid
  expiry : ∀ slot m, m ∈ st.expiry slot ↔ slot ≠ 0 ∧ ∃ r, st.messages m = some r ∧ r.expiresAt = slot
  queues : ∀ did account, st.accounts did = some account →
    account.receiveQueueCount = (st.inboxOf did).length ∧
    account.receiveQueueBytes = (st.inboxOf did).total StreamEntry.bytes ∧
    account.sendQueueCount = (st.outboxOf did).length ∧
    account.sendQueueBytes = (st.outboxOf did).total StreamEntry.bytes
  balanced : st.Balanced

theorem outboxPlace_eq_some {did : String} {sid : StreamId} : r.outboxPlace = some (did, sid) ↔ r.fromDidHash =
    some did ∧ r.sendId = some sid := by
  unfold MessageRecord.outboxPlace
  cases r.fromDidHash <;> cases r.sendId <;> simp

theorem Kept.consistent {digest : String → String} {st : MemoryState} (h : Kept digest st) : Consistent st where
  inbox := by
    intro did sid m
    constructor
    · rintro ⟨e, he, rfl⟩
      obtain ⟨m, r, hm, hplace, rfl⟩ := (h.inbox did sid e).1 he
      obtain ⟨hto, hid⟩ := Prod.mk.inj (some.inj hplace)
      exact ⟨r, hm, hto, hid⟩
    · rintro ⟨r, hm, rfl, rfl⟩
      exact ⟨_, h.inbox.mem hm rfl, rfl⟩
  outbox := by
    intro did sid m
    constructor
    · rintro ⟨e, he, rfl⟩
      obtain ⟨m, r, hm, hplace, rfl⟩ := (h.outbox did sid e).1 he
      exact ⟨r, hm, outboxPlace_eq_some.1 hplace⟩
    · rintro ⟨r, hm, hplace⟩
      exact ⟨_, h.outbox.mem hm (outboxPlace_eq_some.2 hplace), rfl⟩
  expiry := h.expiry
  queues := by
    intro did account haccount
    have hview : st.account did = account := by rw [MemoryState.account, haccount, getD_some]
    have hqueues := h.queues did
    rw [hview] at hqueues
    simpa only [AccountRecord.queues, folderSize, Prod.mk.injEq, and_assoc] using hqueues
  balanced := h.balanced

/-- In every state of every such run the store agrees with itself. -/
theorem reached_consistent {digest : String → String} (hdigest : Function.Injective digest) {st : MemoryState}
    (h : Reached digest st) : Consistent st := (h.kept hdigest).consistent

def oneMessage : MemoryState := MessageCall.exec id default (.store 1 "hello" "bob" (some "alice") 60)

theorem oneMessage_messages (m : String) :
    oneMessage.messages m = if m = "hello" then
      some (storedRecord 1 "hello" "bob" (some "alice") 60 default) else none := by
  have hstores := storeMessage_stores id 1 "hello" "bob" (some "alice") 60 default
  change (storeMessage id 1 "hello" "bob" (some "alice") 60 default).2.messages m = _
  rw [hstores.messages, update_apply]
  rfl

theorem oneMessage_withinCaps : oneMessage.WithinCaps := by
  refine ⟨{"hello"}, ?_, by simp, ?_⟩
  · intro m
    rw [Finset.mem_singleton, oneMessage_messages]
    by_cases hm : m = "hello" <;> simp [hm]
  · rw [Finset.sum_singleton, bytesOf, oneMessage_messages, if_pos rfl]
    decide

theorem oneMessage_reached : Reached id oneMessage := by
  refine .call .start (.store 1 "hello" "bob" (some "alice") 60) ?_ oneMessage_withinCaps
  rintro nowMs message toDidHash fromHash expiresAt - m r hm
  cases hm

theorem oneMessage_consistent :
    Reached id oneMessage ∧ (oneMessage.messages "hello").isSome = true ∧ Consistent oneMessage :=
  ⟨oneMessage_reached, by rw [oneMessage_messages, if_pos rfl]; rfl,
    reached_consistent injective_id oneMessage_reached⟩

end AffinidiTdk.Store
