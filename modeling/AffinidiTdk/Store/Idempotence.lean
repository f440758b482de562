/-
Storing a body that is still stored. The id of a message is the hash of its body, but every call
takes new stream ids, writes new folder entries and counts once more, so a second call is never the
no-op that the trait documents.
-/
import AffinidiTdk.Store.AtLeastOnce
import AffinidiTdk.Store.ConsistentRuns
import AffinidiTdk.Store.FjallEffects

namespace AffinidiTdk.Store

open Acl Bytes OrdMap

/-! ## The states of the in-memory store -/

/-- One call of the in-memory store. -/
inductive MemoryStep (digest : String → String) : MemoryState → MemoryState → Prop
  | message (st : MemoryState) (call : MessageCall) : MemoryStep digest st (call.exec digest st)
  | deleteFolderStream (st : MemoryState) (didHash : String) (folder : Folder) :
      MemoryStep digest st (deleteFolderStream didHash folder st).2
  | accountAdd (st : MemoryState) (didHash : String) (acls : MediatorACLSet) (queueLimit : Option ℕ) :
      MemoryStep digest st (accountAdd didHash acls queueLimit st).2
  | accountRemove (st : MemoryState) (didHash : String) : MemoryStep digest st (accountRemove didHash st).2
  | setupAdminAccount (st : MemoryState) (didHash : String) (adminType : AccountType) (acls : MediatorACLSet) :
      MemoryStep digest st (setupAdminAccount didHash adminType acls st).2
  | accessListAdd (st : MemoryState) (limit : ℕ) (didHash : String) (hashes : List String) :
      MemoryStep digest st (accessListAdd limit didHash hashes st).2
  | accessListRemove (st : MemoryState) (didHash : String) (hashes : List String) :
      MemoryStep digest st (accessListRemove didHash hashes st).2
  | accessListClear (st : MemoryState) (didHash : String) : MemoryStep digest st (accessListClear didHash st).2
  | auditLogRecord (st : MemoryState) (entry : AuditLogEntry) : MemoryStep digest st (auditLogRecord entry st).2
  | enqueue (st : MemoryState) (nowMs : ℕ) (entry : ForwardQueueEntry) (maxLen : ℕ) :
      MemoryStep digest st (forwardQueueEnqueue nowMs entry maxLen st).2
  | queue (st : MemoryState) (call : QueueCall) : MemoryStep digest st (call.exec st)

/-- The states any sequence of calls leads to. -/
def Reachable (digest : String → String) : MemoryState → Prop := Relation.ReflTransGen (MemoryStep digest) default

/-- Every stored message has an id that was given out. -/
def MemoryState.Ahead (st : MemoryState) : Prop := ∀ m r, st.messages m = some r → r.receiveId ≤ st.lastId

section

variable {digest : String → String} {st st' : MemoryState}

theorem MemoryState.Ahead.mono (h : st.Ahead) (hrecedes : Recedes st st') : st'.Ahead :=
  fun m r hm => (h m r (hrecedes.messages m r hm)).trans hrecedes.lastId

theorem MemoryState.Ahead.message (h : st.Ahead) (call : MessageCall) : (call.exec digest st).Ahead := by
  intro m r hm
  rcases call.exec_messages hm with hold | ⟨-, hle⟩
  · exact (h m r hold).trans (call.exec_lastId digest st)
  · exact hle

theorem accountRemove_ahead (h : st.Ahead) (didHash : String) : (accountRemove didHash st).2.Ahead := by
  have hdropped : (deleteFolderStream didHash .outbox
      (setDidAcl didHash ((default : MediatorACLSet).setBlocked true) st).2).2.Ahead := h
  unfold accountRemove
  split
  · exact h
  · exact h
  · have hpurged := hdropped.mono (recedes_purge didHash .inbox _)
    exact hpurged

theorem MemoryState.Ahead.queue (h : st.Ahead) (call : QueueCall) : (call.exec st).Ahead := by
  cases call with
  | enqueue nowMs entry =>
    refine h.mono ⟨fun m r hm => ?_, (allocStreamId_gt st nowMs).le⟩
    rwa [QueueCall.exec, forwardQueueEnqueue, (allocStreamId_folders nowMs st).2.2.2.1] at hm
  | read now group consumer count => exact h
  | ack group ids =>
    simp only [QueueCall.exec, forwardQueueAck]
    split <;> exact h
  | delete ids => exact h
  | autoclaim now group consumer minIdle count =>
    simp only [QueueCall.exec, forwardQueueAutoclaim]
    split <;> exact h

/-- A step keeps the next id ahead of those in use. -/
theorem MemoryState.Ahead.step (h : st.Ahead) (hstep : MemoryStep digest st st') : st'.Ahead := by
  cases hstep with
  | message call => exact h.message call
  | deleteFolderStream didHash folder => cases folder <;> exact h
  | accountAdd didHash acls queueLimit => exact h
  | accountRemove didHash => exact accountRemove_ahead h didHash
  | setupAdminAccount didHash adminType acls =>
    unfold setupAdminAccount
    dsimp only
    split <;> exact h
  | accessListAdd limit didHash hashes => exact h
  | accessListRemove didHash hashes =>
    unfold accessListRemove
    split <;> exact h
  | accessListClear didHash => exact h
  | auditLogRecord entry => exact h
  | enqueue nowMs entry maxLen =>
    refine h.mono ⟨fun m r hm => ?_, (allocStreamId_gt st nowMs).le⟩
    rwa [forwardQueueEnqueue, (allocStreamId_folders nowMs st).2.2.2.1] at hm
  | queue call => exact h.queue call

theorem Reachable.ahead (h : Reachable digest st) : st.Ahead := by
  induction h with
  | refl => exact fun m r hm => nomatch hm
  | tail _ hstep ih => exact ih.step hstep

end

/-! ## A second call -/

section

variable (digest : String → String) (nowMs : ℕ) (message toDidHash : String) (fromHash : Option String)
  (expiresAt : ℕ)

/-- The in-memory store answers with the id and changes none of its indexes, counters or records. -/
def StoreIsNoop (st : MemoryState) : Prop :=
  let answer := storeMessage digest nowMs message toDidHash fromHash expiresAt st
  answer.1 = .ok (digest message) ∧ answer.2.inbox = st.inbox ∧ answer.2.outbox = st.outbox ∧
    (∀ did, (answer.2.account did).queues = (st.account did).queues) ∧ answer.2.expiry = st.expiry ∧
    answer.2.messages = st.messages

/-- The same of the embedded store. -/
def Fjall.StoreIsNoop (st : Fjall.FjallState) : Prop :=
  let answer := Fjall.storeMessage digest nowMs message toDidHash fromHash expiresAt st
  answer.1 = .ok (digest message) ∧ answer.2.inbox = st.inbox ∧ answer.2.outbox = st.outbox ∧
    (∀ did, (answer.2.account did).queues = (st.account did).queues) ∧ answer.2.expiry = st.expiry ∧
    answer.2.messages = st.messages

theorem not_storeIsNoop {st : MemoryState} (h : st.Ahead) :
    ¬StoreIsNoop digest nowMs message toDidHash fromHash expiresAt st := by
  rintro ⟨-, -, -, -, -, hmessages⟩
  have hstores := storeMessage_stores digest nowMs message toDidHash fromHash expiresAt st
  have hrecord : st.messages (digest message) =
    some (storedRecord nowMs message toDidHash fromHash expiresAt st) := by
    have hafter := congrFun hstores.messages (digest message)
    rwa [Function.update_self, hmessages] at hafter
  exact absurd (h _ _ hrecord) (not_le.2 hstores.receiveId_gt)

/-- Everything the call would write is there: its record and its folder entries under the very
stream ids it is about to take, its expiry entry, and counters that are full. -/
structure Fjall.AlreadyWritten (st : Fjall.FjallState) : Prop where
  record : st.messages.get? (ofString (digest message)) =
    some (Fjall.storedRecord nowMs message toDidHash fromHash expiresAt st)
  inbox : st.inbox.get? (Fjall.streamKey toDidHash (st.allocStreamId nowMs).1) =
    some ((Fjall.storedRecord nowMs message toDidHash fromHash expiresAt st).inboxEntry (digest message))
  outbox : ∀ sender, senderOf fromHash = some sender →
    st.outbox.get? (Fjall.streamKey sender ((st.allocStreamId nowMs).2.allocStreamId nowMs).1) =
      some ((Fjall.storedRecord nowMs message toDidHash fromHash expiresAt st).outboxEntry (digest message))
  expiry : 0 < expiresAt → st.expiry.get? (Fjall.expiryKey expiresAt (digest message)) = some ()
  receiveFull : senderOf fromHash ≠ some toDidHash →
    (st.account toDidHash).receiveQueueCount = 2 ^ 32 - 1 ∧
    saturatingAddU64 (st.account toDidHash).receiveQueueBytes message.utf8ByteSize =
      (st.account toDidHash).receiveQueueBytes
  sendFull : ∀ sender, senderOf fromHash = some sender →
    (st.account sender).sendQueueCount = 2 ^ 32 - 1 ∧
    saturatingAddU64 (st.account sender).sendQueueBytes message.utf8ByteSize = (st.account sender).sendQueueBytes

variable {n : ℕ}

theorem saturatingAddU32_eq_self : saturatingAddU32 n 1 = n ↔ n = 2 ^ 32 - 1 := by
  unfold saturatingAddU32
  omega

variable {record : Fjall.StoredAccount}

theorem Fjall.received_queues_iff : (record.received n).queues = record.queues ↔ record.receiveQueueCount =
    2 ^ 32 - 1 ∧ saturatingAddU64 record.receiveQueueBytes n = record.receiveQueueBytes := by
  simp [Fjall.StoredAccount.queues, Fjall.StoredAccount.received, saturatingAddU32_eq_self]

theorem Fjall.sent_queues_iff : (record.sent n).queues = record.queues ↔ record.sendQueueCount = 2 ^ 32 - 1 ∧
    saturatingAddU64 record.sendQueueBytes n = record.sendQueueBytes := by
  simp [Fjall.StoredAccount.queues, Fjall.StoredAccount.sent, saturatingAddU32_eq_self]

variable {st : Fjall.FjallState}

theorem Fjall.alreadyWritten_of_noop (h : Fjall.StoreIsNoop digest nowMs message toDidHash fromHash expiresAt st) :
    Fjall.AlreadyWritten digest nowMs message toDidHash fromHash expiresAt st := by
  obtain ⟨-, hinbox, houtbox, hqueues, hexpiry, hmessages⟩ := h
  have hstores := Fjall.storeMessage_stores digest nowMs message toDidHash fromHash expiresAt st
  constructor
  · rw [hstores.messages] at hmessages
    exact insert_eq_self_iff.1 hmessages
  · rw [hstores.inbox] at hinbox
    exact insert_eq_self_iff.1 hinbox
  · intro sender hsender
    obtain ⟨sid, hsid, hafter⟩ := hstores.outbox_some sender hsender
    obtain rfl : ((st.allocStreamId nowMs).2.allocStreamId nowMs).1 = sid := by
      simpa [Fjall.storedRecord, hsender] using hsid
    rw [hafter] at houtbox
    exact insert_eq_self_iff.1 houtbox
  · intro hpos
    rw [hstores.expiry] at hexpiry
    simp only [Fjall.storedRecord, gt_iff_lt, if_pos hpos] at hexpiry
    exact insert_eq_self_iff.1 hexpiry
  · intro hother
    have hafter := (hstores.queues toDidHash).symm.trans (hqueues toDidHash)
    simp only [Fjall.storedRecord, if_neg hother, if_true] at hafter
    exact Fjall.received_queues_iff.1 hafter
  · intro sender hsender
    have hafter := (hstores.queues sender).symm.trans (hqueues sender)
    simp only [Fjall.storedRecord, hsender, if_true] at hafter
    exact Fjall.sent_queues_iff.1 hafter

theorem Fjall.noop_of_alreadyWritten (h : Fjall.AlreadyWritten digest nowMs message toDidHash fromHash expiresAt
    st) : Fjall.StoreIsNoop digest nowMs message toDidHash fromHash expiresAt st := by
  have hstores := Fjall.storeMessage_stores digest nowMs message toDidHash fromHash expiresAt st
  refine ⟨rfl, ?_, ?_, ?_, ?_, ?_⟩
  · rw [hstores.inbox]
    exact insert_eq_self_iff.2 h.inbox
  · cases hsender : senderOf fromHash with
    | none => exact (hstores.outbox_none hsender).2
    | some sender =>
      obtain ⟨sid, hsid, hafter⟩ := hstores.outbox_some sender hsender
      obtain rfl : ((st.allocStreamId nowMs).2.allocStreamId nowMs).1 = sid := by
        simpa [Fjall.storedRecord, hsender] using hsid
      rw [hafter]
      exact insert_eq_self_iff.2 (h.outbox sender hsender)
  · intro did
    rw [hstores.queues]
    split
    · rename_i hsender
      exact Fjall.sent_queues_iff.2 (h.sendFull did hsender)
    · rename_i hother
      split
      · rename_i hto
        subst hto
        exact Fjall.received_queues_iff.2 (h.receiveFull hother)
      · rfl
  · rw [hstores.expiry]
    split
    · rename_i hpos
      exact insert_eq_self_iff.2 (h.expiry hpos)
    · rfl
  · rw [hstores.messages]
    exact insert_eq_self_iff.2 h.record

/-- In no state of the in-memory store is a second call a no-op; in the embedded store it is one
only where the store already holds, under the stream ids it is about to give out, everything the
call writes, and the counters are full. -/
theorem storeMessage_again_noop_iff :
    (∀ st, Reachable digest st → (st.messages (digest message)).isSome →
      ¬StoreIsNoop digest nowMs message toDidHash fromHash expiresAt st) ∧
    ∀ st : Fjall.FjallState, (st.messages.get? (ofString (digest message))).isSome →
      (Fjall.StoreIsNoop digest nowMs message toDidHash fromHash expiresAt st ↔
        Fjall.AlreadyWritten digest nowMs message toDidHash fromHash expiresAt st) :=
  ⟨fun _ hreach _ => not_storeIsNoop digest nowMs message toDidHash fromHash expiresAt hreach.ahead,
    fun _ _ => ⟨Fjall.alreadyWritten_of_noop digest nowMs message toDidHash fromHash expiresAt,
      Fjall.noop_of_alreadyWritten digest nowMs message toDidHash fromHash expiresAt⟩⟩

end

/-- The embedded store after one message. -/
def Fjall.oneMessage : Fjall.FjallState := (Fjall.storeMessage id 1 "hello" "bob" (some "alice") 60 default).2

theorem Fjall.oneMessage_stored : (Fjall.oneMessage.messages.get? (ofString (id "hello"))).isSome := by
  have hstores := Fjall.storeMessage_stores id 1 "hello" "bob" (some "alice") 60 default
  rw [Fjall.oneMessage, hstores.messages, get?_insert, if_pos rfl]
  rfl

theorem oneMessage_again :
    ¬StoreIsNoop id 2 "hello" "bob" (some "alice") 60 oneMessage ∧
    (Fjall.StoreIsNoop id 2 "hello" "bob" (some "alice") 60 Fjall.oneMessage ↔
      Fjall.AlreadyWritten id 2 "hello" "bob" (some "alice") 60 Fjall.oneMessage) := by
  have hreach : Reachable id oneMessage := .tail .refl (.message default (.store 1 "hello" "bob" (some "alice") 60))
  have hstored : (oneMessage.messages (id "hello")).isSome := by
    rw [id_eq, oneMessage_messages, if_pos rfl]
    rfl
  have hboth := storeMessage_again_noop_iff id 2 "hello" "bob" (some "alice") 60
  exact ⟨hboth.1 oneMessage hreach hstored, hboth.2 Fjall.oneMessage Fjall.oneMessage_stored⟩

/-- The same body stored twice and deleted: an inbox entry stays that no message answers to. -/
theorem oneMessage_twice_orphans :
    Reachable id oneMessage ∧ (oneMessage.messages "hello").isSome ∧
    ¬StoreIsNoop id 2 "hello" "bob" (some "alice") 60 oneMessage ∧
    let twice := (storeMessage id 2 "hello" "bob" (some "alice") 60 oneMessage).2
    let gone := (deleteMessage "hello" (.owner "bob") twice).2
    (twice.inboxOf "bob").length = 2 ∧ (twice.account "bob").receiveQueueCount = 2 ∧
      (gone.messages "hello").isNone ∧ (gone.inboxOf "bob").values.map StreamEntry.msgId = ["hello"] := by
  have hreach : Reachable id oneMessage := .tail .refl (.message default (.store 1 "hello" "bob" (some "alice") 60))
  refine ⟨hreach, ?_, not_storeIsNoop _ _ _ _ _ _ hreach.ahead, ?_⟩
  · rw [oneMessage_messages, if_pos rfl]
    rfl
  · decide +kernel

end AffinidiTdk.Store
