/-
What storing and deleting a message do to the folders, the expiry index and the queue counters of
the in-memory store. An absent stream is an empty one and an absent account one with empty queues,
so that each effect is one equation.
-/
import AffinidiTdk.Store.Delivery

namespace AffinidiTdk.Store

open Function Option MemoryState AccountRecord
open Acl

/-! ## Views -/

def MemoryState.inboxOf (st : MemoryState) (did : String) : OrdMap StreamId StreamEntry := (st.inbox did).getD .empty

def MemoryState.outboxOf (st : MemoryState) (did : String) : OrdMap StreamId StreamEntry :=
    (st.outbox did).getD .empty

def MemoryState.account (st : MemoryState) (did : String) : AccountRecord := (st.accounts did).getD default

/-- The entry of a message in its recipient's inbox. -/
def MessageRecord.inboxEntry (record : MessageRecord) (msgId : String) : StreamEntry :=
  ⟨msgId, record.bytes, record.fromDidHash.getD "ANONYMOUS"⟩

/-- The entry of a message in its sender's outbox. -/
def MessageRecord.outboxEntry (record : MessageRecord) (msgId : String) : StreamEntry :=
  ⟨msgId, record.bytes, record.toDidHash⟩

/-- What the four queue counters of an account say. -/
def AccountRecord.queues (record : AccountRecord) : (ℕ × ℕ) × (ℕ × ℕ) :=
  ((record.receiveQueueCount, record.receiveQueueBytes), (record.sendQueueCount, record.sendQueueBytes))

/-! ## Removing a message -/

section

variable (st : MemoryState) (msgId : String) (record : MessageRecord) (did : String)

@[simp] theorem unindexExpiry_inbox (expiresAt : ℕ) : (st.unindexExpiry expiresAt msgId).inbox = st.inbox := by
  unfold unindexExpiry
  split <;> rfl

@[simp] theorem unindexExpiry_outbox (expiresAt : ℕ) : (st.unindexExpiry expiresAt msgId).outbox = st.outbox := by
  unfold unindexExpiry
  split <;> rfl

@[simp] theorem unindexExpiry_counters (expiresAt : ℕ) : (st.unindexExpiry expiresAt msgId).counters =
  st.counters := by
  unfold unindexExpiry
  split <;> rfl

theorem mem_unindexExpiry (expiresAt slot : ℕ) (m : String) :
    m ∈ (st.unindexExpiry expiresAt msgId).expiry slot ↔
      m ∈ st.expiry slot ∧ ¬(expiresAt ≠ 0 ∧ slot = expiresAt ∧ m = msgId) := by
  unfold unindexExpiry
  split
  · rename_i hzero
    simp [hzero]
  · rename_i hzero
    by_cases hslot : slot = expiresAt
    · subst hslot
      simp [hzero, and_comm]
    · simp [hslot]

theorem inboxOf_removeMessage : (st.removeMessage msgId record).inboxOf =
    update st.inboxOf record.toDidHash ((st.inboxOf record.toDidHash).erase record.receiveId) := by
  have hinbox : (st.removeMessage msgId record).inbox =
      update st.inbox record.toDidHash
        ((st.inbox record.toDidHash).map fun stream => OrdMap.erase stream record.receiveId) := by
    unfold removeMessage
    cases record.fromDidHash <;> cases record.sendId <;>
      simp [incrCounter, modifyAccount]
  funext did
  by_cases hdid : did = record.toDidHash
  · subst hdid
    simp only [inboxOf, hinbox, update_self]
    cases st.inbox record.toDidHash <;> rfl
  · simp only [inboxOf, hinbox, update_of_ne hdid]

theorem outboxOf_removeMessage {sender : String} {sid : StreamId} (hfrom : record.fromDidHash = some sender)
    (hsend : record.sendId = some sid) :
    (st.removeMessage msgId record).outboxOf =
      update st.outboxOf sender ((st.outboxOf sender).erase sid) := by
  funext did
  simp only [outboxOf, removeMessage, hsend, hfrom]
  by_cases hdid : did = sender
  · subst hdid
    simp only [incrCounter, modifyAccount, unindexExpiry_outbox, update_self]
    cases st.outbox did <;> rfl
  · simp only [incrCounter, modifyAccount, unindexExpiry_outbox, update_of_ne hdid,
      outboxOf]

theorem outboxOf_removeMessage_anonymous (hfrom : record.fromDidHash = none) :
    (st.removeMessage msgId record).outboxOf = st.outboxOf := by
  funext did
  simp [outboxOf, removeMessage, hfrom, incrCounter, modifyAccount]

theorem mem_expiry_removeMessage (slot : ℕ) (m : String) :
    m ∈ (st.removeMessage msgId record).expiry slot ↔
      m ∈ st.expiry slot ∧ ¬(record.expiresAt ≠ 0 ∧ slot = record.expiresAt ∧ m = msgId) := by
  rw [← mem_unindexExpiry]
  unfold removeMessage unindexExpiry
  by_cases hzero : record.expiresAt = 0 <;> simp only [hzero, if_true, if_false] <;>
    cases record.fromDidHash <;> cases record.sendId <;> rfl

theorem lastId_removeMessage : (st.removeMessage msgId record).lastId = st.lastId := by
  unfold removeMessage unindexExpiry
  by_cases hzero : record.expiresAt = 0 <;> simp only [hzero, if_true, if_false] <;>
    cases record.fromDidHash <;> cases record.sendId <;> rfl

theorem counters_removeMessage : (st.removeMessage msgId record).counters =
    ((st.incrCounter "DELETED_BYTES" record.bytes).incrCounter "DELETED_COUNT" 1).counters := by
  unfold removeMessage unindexExpiry
  by_cases hzero : record.expiresAt = 0 <;> simp only [hzero, if_true, if_false] <;>
    cases record.fromDidHash <;> cases record.sendId <;> rfl

theorem account_removeMessage (hsend : record.fromDidHash.isSome → record.sendId.isSome) :
    ((st.removeMessage msgId record).account did).queues =
    ((if did = record.toDidHash then ((st.account did).receiveQueueCount - 1, (st.account did).receiveQueueBytes -
    record.bytes) else ((st.account did).receiveQueueCount, (st.account did).receiveQueueBytes)),
    if record.fromDidHash = some did then ((st.account did).sendQueueCount - 1, (st.account did).sendQueueBytes -
    record.bytes) else ((st.account did).sendQueueCount, (st.account did).sendQueueBytes)) := by
  simp only [account, removeMessage_accounts]
  cases haccount : st.accounts did with
  | none =>
    -- an absent account has nothing to lose
    have hempty : (default : AccountRecord).queues = ((0, 0), (0, 0)) := rfl
    have hrecv : (default : AccountRecord).receiveQueueCount = 0 ∧ (default : AccountRecord).receiveQueueBytes = 0 :=
      ⟨rfl, rfl⟩
    have hsent : (default : AccountRecord).sendQueueCount = 0 ∧ (default : AccountRecord).sendQueueBytes = 0 :=
      ⟨rfl, rfl⟩
    simp [hempty, hrecv, hsent]
  | some account =>
    by_cases hfrom : record.fromDidHash = some did
    · have hboth : record.fromDidHash = some did ∧ record.sendId.isSome = true :=
        ⟨hfrom, hsend (by rw [hfrom]; rfl)⟩
      by_cases hto : did = record.toDidHash
      · simp only [if_pos hboth, if_pos hto, if_pos hfrom]
        rfl
      · simp only [if_pos hboth, if_neg hto, if_pos hfrom]
        rfl
    · have hnot : ¬(record.fromDidHash = some did ∧ record.sendId.isSome = true) := fun h => hfrom h.1
      by_cases hto : did = record.toDidHash
      · simp only [if_neg hnot, if_pos hto, if_neg hfrom]
        rfl
      · simp only [if_neg hnot, if_neg hto, if_neg hfrom]
        rfl

end

/-! ## Storing a message -/

/-- The sender whose outbox a message enters: none for an anonymous message, whatever spells it so. -/
def senderOf (fromHash : Option String) : Option String :=
  if (fromHash.filter fun s => !s.isEmpty).getD "ANONYMOUS" = "ANONYMOUS" then none
  else some ((fromHash.filter fun s => !s.isEmpty).getD "ANONYMOUS")

/-- The record `store_message` writes. -/
def storedRecord (nowMs : ℕ) (message toDidHash : String) (fromHash : Option String) (expiresAt : ℕ)
    (st : MemoryState) : MessageRecord :=
  { body := message
    bytes := message.utf8ByteSize
    toDidHash
    fromDidHash := senderOf fromHash
    timestampMs := nowMs
    receiveId := (st.allocStreamId nowMs).1
    sendId := (senderOf fromHash).map fun _ => ((st.allocStreamId nowMs).2.allocStreamId nowMs).1
    expiresAt }

section

variable (digest : String → String) (nowMs : ℕ) (message toDidHash : String) (fromHash : Option String)
  (expiresAt : ℕ) (st : MemoryState)

theorem allocStreamId_folders : (st.allocStreamId nowMs).2.inbox = st.inbox ∧
    (st.allocStreamId nowMs).2.outbox = st.outbox ∧ (st.allocStreamId nowMs).2.expiry = st.expiry ∧
    (st.allocStreamId nowMs).2.messages = st.messages ∧ (st.allocStreamId nowMs).2.counters = st.counters := by
  unfold allocStreamId
  split <;> exact ⟨rfl, rfl, rfl, rfl, rfl⟩

theorem mem_indexExpiry (slot : ℕ) (msgId m : String) :
    m ∈ (st.indexExpiry expiresAt msgId).expiry slot ↔
      m ∈ st.expiry slot ∨ (expiresAt ≠ 0 ∧ slot = expiresAt ∧ m = msgId) := by
  unfold indexExpiry
  split
  · rename_i hzero
    simp [hzero]
  · rename_i hzero
    by_cases hslot : slot = expiresAt
    · subst hslot
      simp [hzero, or_comm]
    · simp [hslot]

/-- The whole effect of `store_message`, field by field. -/
structure Stores (msgId : String) (record : MessageRecord) (st st' : MemoryState) : Prop where
  messages : st'.messages = Function.update st.messages msgId (some record)
  inbox : st'.inbox = Function.update st.inbox record.toDidHash
    (some ((st.inboxOf record.toDidHash).insert record.receiveId (record.inboxEntry msgId)))
  outbox_none : record.fromDidHash = none → record.sendId = none ∧ st'.outbox = st.outbox
  outbox_some : ∀ sender, record.fromDidHash = some sender → ∃ sid, record.sendId = some sid ∧
    st'.outbox = Function.update st.outbox sender
      (some ((st.outboxOf sender).insert sid (record.outboxEntry msgId)))
  expiry : ∀ slot m, m ∈ st'.expiry slot ↔
    m ∈ st.expiry slot ∨ (record.expiresAt ≠ 0 ∧ slot = record.expiresAt ∧ m = msgId)
  account : ∀ did, (st'.account did).queues =
    ((if did = record.toDidHash then
        (saturatingAddU32 (st.account did).receiveQueueCount 1,
          saturatingAddU64 (st.account did).receiveQueueBytes record.bytes)
      else ((st.account did).receiveQueueCount, (st.account did).receiveQueueBytes)),
      if record.fromDidHash = some did then
        (saturatingAddU32 (st.account did).sendQueueCount 1,
          saturatingAddU64 (st.account did).sendQueueBytes record.bytes)
      else ((st.account did).sendQueueCount, (st.account did).sendQueueBytes))
  counters : st'.counters =
    ((st.incrCounter "RECEIVED_BYTES" record.bytes).incrCounter "RECEIVED_COUNT" 1).counters
  receiveId_gt : st.lastId < record.receiveId
  receiveId_le : record.receiveId ≤ st'.lastId
  sendId_gt : ∀ sid, record.sendId = some sid → record.receiveId < sid ∧ sid ≤ st'.lastId

theorem indexExpiry_fields (msgId : String) :
    (st.indexExpiry expiresAt msgId).inbox = st.inbox ∧ (st.indexExpiry expiresAt msgId).outbox = st.outbox ∧
    (st.indexExpiry expiresAt msgId).messages = st.messages ∧
    (st.indexExpiry expiresAt msgId).counters = st.counters ∧
    (st.indexExpiry expiresAt msgId).lastId = st.lastId := by
  unfold indexExpiry
  split <;> exact ⟨rfl, rfl, rfl, rfl, rfl⟩

theorem storeMessage_stores :
    Stores (digest message) (storedRecord nowMs message toDidHash fromHash expiresAt st) st
      (storeMessage digest nowMs message toDidHash fromHash expiresAt st).2 := by
  obtain ⟨hinbox, houtbox, hexpiry, hmessages, hcounters⟩ := allocStreamId_folders nowMs st
  obtain ⟨hinbox', houtbox', hexpiry', hmessages', hcounters'⟩ :=
    allocStreamId_folders nowMs (st.allocStreamId nowMs).2
  have hgt := allocStreamId_gt st nowMs
  have hgt' := allocStreamId_gt (st.allocStreamId nowMs).2 nowMs
  by_cases hsender : (fromHash.filter fun s => !s.isEmpty).getD "ANONYMOUS" = "ANONYMOUS"
  · have hnone : senderOf fromHash = none := if_pos hsender
    unfold storeMessage storedRecord
    simp only [hsender, hnone, ne_eq, not_true, if_false, if_true, map_none]
    constructor
    · simp [indexExpiry_fields, incrCounter, upsertAccount, hmessages]
    · simp [indexExpiry_fields, incrCounter, upsertAccount, hinbox, inboxOf,
        MessageRecord.inboxEntry]
    · simp [indexExpiry_fields, incrCounter, upsertAccount, houtbox]
    · simp
    · intro slot m
      dsimp only
      rw [mem_indexExpiry]
      simp [incrCounter, upsertAccount, hexpiry]
    · intro did
      simp only [account, indexExpiry_accounts, incrCounter_accounts, upsertAccount_accounts,
        allocStreamId_accounts]
      by_cases hdid : did = toDidHash
      · subst hdid
        simp [queues]
      · simp [hdid, queues]
    · simp [indexExpiry_fields, incrCounter, upsertAccount, hcounters]
    · exact hgt
    · change _ ≤ (indexExpiry _ _ _).lastId
      rw [(indexExpiry_fields _ _ _).2.2.2.2]
      exact le_rfl
    · simp
  · have hsome : senderOf fromHash = some ((fromHash.filter fun s => !s.isEmpty).getD "ANONYMOUS") := if_neg hsender
    unfold storeMessage storedRecord
    simp only [hsender, hsome, ne_eq, not_false_eq_true, if_true, if_false, map_some]
    constructor
    · simp [indexExpiry_fields, incrCounter, upsertAccount, hmessages', hmessages]
    · simp [indexExpiry_fields, incrCounter, upsertAccount, hinbox', hinbox,
        inboxOf, MessageRecord.inboxEntry]
    · simp
    · rintro sender hsenderEq
      cases hsenderEq
      refine ⟨_, rfl, ?_⟩
      simp [indexExpiry_fields, incrCounter, upsertAccount, houtbox', houtbox,
        outboxOf, MessageRecord.outboxEntry]
    · intro slot m
      dsimp only
      rw [mem_indexExpiry]
      simp [incrCounter, upsertAccount, hexpiry', hexpiry]
    · intro did
      simp only [account, indexExpiry_accounts, incrCounter_accounts, upsertAccount_accounts,
        allocStreamId_accounts]
      -- the sender may be the recipient: both pairs of one record move
      by_cases hdid : did = toDidHash
      · subst hdid
        by_cases hself : did = (fromHash.filter fun s => !s.isEmpty).getD "ANONYMOUS"
        · simp [← hself, queues]
        · simp [hself, Ne.symm hself, queues]
      · by_cases hself : did = (fromHash.filter fun s => !s.isEmpty).getD "ANONYMOUS"
        · simp [← hself, hdid, queues]
        · simp [hself, Ne.symm hself, hdid, queues]
    · simp [indexExpiry_fields, incrCounter, upsertAccount, hcounters', hcounters]
    · exact hgt
    · change _ ≤ (indexExpiry _ _ _).lastId
      rw [(indexExpiry_fields _ _ _).2.2.2.2]
      exact hgt'.le
    · rintro sid hsid
      cases hsid
      refine ⟨hgt', ?_⟩
      change _ ≤ (indexExpiry _ _ _).lastId
      rw [(indexExpiry_fields _ _ _).2.2.2.2]
      exact le_rfl

variable {digest nowMs message toDidHash fromHash expiresAt st}

theorem Stores.inboxOf {msgId : String} {record : MessageRecord} {st' : MemoryState}
    (h : Stores msgId record st st') :
    st'.inboxOf = update st.inboxOf record.toDidHash
      ((st.inboxOf record.toDidHash).insert record.receiveId (record.inboxEntry msgId)) := by
  funext did
  by_cases hdid : did = record.toDidHash
  · subst hdid
    simp only [MemoryState.inboxOf, h.inbox, update_self, getD_some]
  · simp only [MemoryState.inboxOf, h.inbox, update_of_ne hdid]

theorem Stores.outboxOf {msgId sender : String} {record : MessageRecord} {st' : MemoryState}
    (h : Stores msgId record st st') (hfrom : record.fromDidHash = some sender) :
    ∃ sid, record.sendId = some sid ∧ st'.outboxOf =
      update st.outboxOf sender ((st.outboxOf sender).insert sid (record.outboxEntry msgId)) := by
  obtain ⟨sid, hsid, houtbox⟩ := h.outbox_some sender hfrom
  refine ⟨sid, hsid, ?_⟩
  funext did
  by_cases hdid : did = sender
  · subst hdid
    simp only [MemoryState.outboxOf, houtbox, update_self, getD_some]
  · simp only [MemoryState.outboxOf, houtbox, update_of_ne hdid]

end

end AffinidiTdk.Store
