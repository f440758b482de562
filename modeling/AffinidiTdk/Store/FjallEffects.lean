/-
What storing and deleting a message do to the partitions of the embedded store. The two accounts a
message names are read before either is written, so where sender and recipient are one account, the
later write, the sender's, is the one that stays.
-/
import AffinidiTdk.Store.Fjall
import AffinidiTdk.Store.Mailbox

namespace AffinidiTdk.Store.Fjall

open Acl Bytes

/-! ## Views -/

def FjallState.account (st : FjallState) (did : String) : StoredAccount :=
  (st.accounts.get? (ofString did)).getD default

/-- The stream id given out last. -/
def FjallState.lastId (st : FjallState) : StreamId := toLex (st.lastStreamMs, st.nextStreamSeq)

/-- What the four queue counters of an account say. -/
def StoredAccount.queues (record : StoredAccount) : (ℕ × ℕ) × (ℕ × ℕ) :=
  ((record.receiveQueueCount, record.receiveQueueBytes), (record.sendQueueCount, record.sendQueueBytes))

/-! ## Storing a message -/

/-- The record `store_message` writes. -/
def storedRecord (nowMs : ℕ) (message toDidHash : String) (fromHash : Option String) (expiresAt : ℕ)
    (st : FjallState) : MessageRecord :=
  { body := message
    bytes := message.utf8ByteSize
    toDidHash
    fromDidHash := senderOf fromHash
    timestampMs := nowMs
    receiveId := (st.allocStreamId nowMs).1
    sendId := (senderOf fromHash).map fun _ => ((st.allocStreamId nowMs).2.allocStreamId nowMs).1
    expiresAt }

/-- The whole effect of `store_message`, partition by partition. -/
structure Stores (msgId : String) (record : MessageRecord) (st st' : FjallState) : Prop where
  messages : st'.messages = st.messages.insert (ofString msgId) record
  inbox : st'.inbox = st.inbox.insert (streamKey record.toDidHash record.receiveId) (record.inboxEntry msgId)
  outbox_none : record.fromDidHash = none → record.sendId = none ∧ st'.outbox = st.outbox
  outbox_some : ∀ sender, record.fromDidHash = some sender → ∃ sid, record.sendId = some sid ∧
    st'.outbox = st.outbox.insert (streamKey sender sid) (record.outboxEntry msgId)
  accounts_none : record.fromDidHash = none →
    st'.accounts = st.accounts.insert (ofString record.toDidHash)
      ((st.account record.toDidHash).received record.bytes)
  accounts_some : ∀ sender, record.fromDidHash = some sender →
    st'.accounts = (st.accounts.insert (ofString record.toDidHash)
      ((st.account record.toDidHash).received record.bytes)).insert (ofString sender)
        ((st.account sender).sent record.bytes)
  expiry : st'.expiry = if record.expiresAt > 0 then st.expiry.insert (expiryKey record.expiresAt msgId) ()
    else st.expiry

section

variable (digest : String → String) (nowMs : ℕ) (message toDidHash : String) (fromHash : Option String)
  (expiresAt : ℕ) (st : FjallState)

theorem allocStreamId_partitions : (st.allocStreamId nowMs).2.messages = st.messages ∧
    (st.allocStreamId nowMs).2.inbox = st.inbox ∧ (st.allocStreamId nowMs).2.outbox = st.outbox ∧
    (st.allocStreamId nowMs).2.expiry = st.expiry ∧ (st.allocStreamId nowMs).2.accounts = st.accounts := by
  unfold FjallState.allocStreamId
  split <;> exact ⟨rfl, rfl, rfl, rfl, rfl⟩

theorem storeMessage_stores :
    Stores (digest message) (storedRecord nowMs message toDidHash fromHash expiresAt st) st
      (storeMessage digest nowMs message toDidHash fromHash expiresAt st).2 := by
  obtain ⟨hmessages, hinbox, houtbox, hexpiry, haccounts⟩ := allocStreamId_partitions nowMs st
  obtain ⟨hmessages', hinbox', houtbox', hexpiry', haccounts'⟩ :=
    allocStreamId_partitions nowMs (st.allocStreamId nowMs).2
  by_cases hsender : (fromHash.filter fun s => !s.isEmpty).getD "ANONYMOUS" = "ANONYMOUS"
  · have hnone : senderOf fromHash = none := if_pos hsender
    unfold storeMessage storedRecord
    simp only [hsender, hnone, ne_eq, not_true, if_false, if_true, Option.map_none, hmessages, hinbox, houtbox,
      hexpiry, haccounts, FjallState.bumpGlobal]
    constructor
    · rfl
    · rfl
    · exact fun _ => ⟨rfl, rfl⟩
    · exact fun _ h => nomatch h
    · exact fun _ => rfl
    · exact fun _ h => nomatch h
    · rfl
  · have hsome : senderOf fromHash = some ((fromHash.filter fun s => !s.isEmpty).getD "ANONYMOUS") := if_neg hsender
    unfold storeMessage storedRecord
    simp only [hsender, hsome, ne_eq, not_false_eq_true, if_true, if_false, Option.map_some, hmessages', hinbox',
      houtbox', hexpiry', haccounts', hmessages, hinbox, houtbox, hexpiry, haccounts, FjallState.bumpGlobal]
    constructor
    · rfl
    · rfl
    · exact fun h => nomatch h
    · rintro sender hs
      cases hs
      exact ⟨_, rfl, rfl⟩
    · exact fun h => nomatch h
    · rintro sender hs
      cases hs
      rfl
    · rfl

end

theorem Stores.queues {msgId : String} {record : MessageRecord} {st st' : FjallState}
    (h : Stores msgId record st st') (did : String) : (st'.account did).queues = if record.fromDidHash =
    some did then ((st.account did).sent record.bytes).queues else if did = record.toDidHash then
    ((st.account did).received record.bytes).queues else (st.account did).queues := by
  have hkey : ∀ d, ofString did = ofString d ↔ did = d := fun d => ofString_injective.eq_iff
  cases hfrom : record.fromDidHash with
  | none =>
    simp only [FjallState.account, h.accounts_none hfrom, OrdMap.get?_insert, hkey, reduceCtorEq, if_false]
    by_cases hto : did = record.toDidHash
    · subst hto
      simp
    · simp [hto]
  | some sender =>
    simp only [FjallState.account, h.accounts_some sender hfrom, OrdMap.get?_insert, hkey, Option.some.injEq]
    by_cases hs : did = sender
    · subst hs
      simp
    · by_cases hto : did = record.toDidHash
      · subst hto
        simp [hs, Ne.symm hs]
      · simp [hs, Ne.symm hs, hto]

end AffinidiTdk.Store.Fjall
