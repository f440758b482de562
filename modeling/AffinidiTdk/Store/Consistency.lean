/-
The in-memory store's folders, expiry index and counters all say what its messages say: every entry
of a folder is a stored message's, every stored message has its entries, and the queue counters of
an account are the sizes of its folders.
-/
import AffinidiTdk.Lib.Index
import AffinidiTdk.Store.Folders
import AffinidiTdk.Store.Mailbox
import Mathlib.Algebra.Order.BigOperators.Group.Finset

namespace AffinidiTdk.Store

open Function MemoryState MessageRecord Finset
open Acl

/-! ## The invariant -/

/-- Where a message stands in its recipient's inbox. -/
def MessageRecord.inboxPlace (record : MessageRecord) : Option (String × StreamId) :=
  some (record.toDidHash, record.receiveId)

/-- Where a message stands in its sender's outbox, if it has one. -/
def MessageRecord.outboxPlace (record : MessageRecord) : Option (String × StreamId) :=
  record.fromDidHash.bind fun sender => record.sendId.map fun sid => (sender, sid)

/-- The size of a folder as the account counts it: messages and bytes. -/
def folderSize (stream : OrdMap StreamId StreamEntry) : ℕ × ℕ := (stream.length, stream.total StreamEntry.bytes)

/-- The size of a stored message, nothing for one that is not there. -/
def MemoryState.bytesOf (st : MemoryState) (msgId : String) : ℕ :=
    ((st.messages msgId).map MessageRecord.bytes).getD 0

/-- What was received and not deleted since is what is stored. -/
def MemoryState.Balanced (st : MemoryState) : Prop :=
  ∃ ids : Finset String, (∀ m, m ∈ ids ↔ (st.messages m).isSome) ∧
    st.counters "RECEIVED_COUNT" = st.counters "DELETED_COUNT" + ids.card ∧
    st.counters "RECEIVED_BYTES" = st.counters "DELETED_BYTES" + ((∑ m ∈ ids, st.bytesOf m : ℕ) : ℤ)

/-- Every index of the store agrees with its messages. -/
structure Kept (digest : String → String) (st : MemoryState) : Prop where
  inbox : Indexes st.messages MessageRecord.inboxPlace (fun m r => r.inboxEntry m) st.inboxOf
  outbox : Indexes st.messages MessageRecord.outboxPlace (fun m r => r.outboxEntry m) st.outboxOf
  expiry : ∀ slot m, m ∈ st.expiry slot ↔ slot ≠ 0 ∧ ∃ r, st.messages m = some r ∧ r.expiresAt = slot
  queues : ∀ did, (st.account did).queues = (folderSize (st.inboxOf did), folderSize (st.outboxOf did))
  balanced : st.Balanced
  sent : ∀ {m r}, st.messages m = some r → (r.fromDidHash.isSome ↔ r.sendId.isSome)
  inbox_le : ∀ did, ∀ e ∈ (st.inboxOf did).entries, e.1 ≤ st.lastId
  outbox_le : ∀ did, ∀ e ∈ (st.outboxOf did).entries, e.1 ≤ st.lastId
  named : ∀ {m r}, st.messages m = some r → m = digest r.body

/-- The inboxes' share of it, which does not depend on what the outboxes hold. -/
structure InboxKept (digest : String → String) (st : MemoryState) : Prop where
  inbox : Indexes st.messages MessageRecord.inboxPlace (fun m r => r.inboxEntry m) st.inboxOf
  receiveQueue : ∀ did,
    ((st.account did).receiveQueueCount, (st.account did).receiveQueueBytes) = folderSize (st.inboxOf did)
  sent : ∀ {m r}, st.messages m = some r → (r.fromDidHash.isSome ↔ r.sendId.isSome)
  inbox_le : ∀ did, ∀ e ∈ (st.inboxOf did).entries, e.1 ≤ st.lastId
  named : ∀ {m r}, st.messages m = some r → m = digest r.body

theorem Kept.inboxes {digest : String → String} {st : MemoryState} (h : Kept digest st) : InboxKept digest st where
  inbox := h.inbox
  receiveQueue := fun did => (Prod.ext_iff.1 (h.queues did)).1
  sent := h.sent
  inbox_le := h.inbox_le
  named := h.named

variable {r r' : MessageRecord}

theorem inboxEntry_inj {m m' : String} (h : r.inboxEntry m = r'.inboxEntry m') : m = m' :=
  congrArg StreamEntry.msgId h

theorem outboxEntry_inj {m m' : String} (h : r.outboxEntry m = r'.outboxEntry m') : m = m' :=
  congrArg StreamEntry.msgId h

theorem kept_default (digest : String → String) : Kept digest default where
  inbox := by
    intro did sid e
    constructor
    · intro h
      cases h
    · rintro ⟨m, r, h, -⟩
      cases h
  outbox := by
    intro did sid e
    constructor
    · intro h
      cases h
    · rintro ⟨m, r, h, -⟩
      cases h
  expiry := by
    intro slot m
    constructor
    · intro h
      cases h
    · rintro ⟨-, r, h, -⟩
      cases h
  queues := fun did => rfl
  balanced := by
    refine ⟨∅, ?_, rfl, rfl⟩
    intro m
    simp [show (default : MemoryState).messages m = none from rfl]
  sent := by
    intro m r h
    cases h
  inbox_le := by
    intro did e h
    cases h
  outbox_le := by
    intro did e h
    cases h
  named := by
    intro m r h
    cases h

section

variable {digest : String → String} {st : MemoryState}

/-! ## Deleting -/

theorem Kept.sendQueue (h : Kept digest st) (did : String) :
    ((st.account did).sendQueueCount, (st.account did).sendQueueBytes) = folderSize (st.outboxOf did) :=
  (Prod.ext_iff.1 (h.queues did)).2

variable {stream : OrdMap StreamId StreamEntry} {sid : StreamId}

theorem folderSize_erase {e : StreamEntry} (h : (sid, e) ∈ stream.entries) : folderSize (stream.erase sid) =
    ((folderSize stream).1 - 1, (folderSize stream).2 - e.bytes) := by
  simp only [folderSize, OrdMap.length_erase h, OrdMap.total_erase h]

variable {m : String} {r rx : MessageRecord}

theorem removeMessage_stored {x : String} (hx : (st.removeMessage m r).messages x = some rx) :
    st.messages x = some rx := by
  rw [removeMessage_messages] at hx
  by_cases hxm : x = m
  · simp [hxm] at hx
  · rwa [update_of_ne hxm] at hx

theorem InboxKept.remove (h : InboxKept digest st) (hm : st.messages m = some r) :
    InboxKept digest (st.removeMessage m r) := by
  constructor
  · rw [removeMessage_messages, inboxOf_removeMessage]
    exact h.inbox.erase inboxEntry_inj hm rfl
  · intro did
    have hrecv := h.receiveQueue did
    have hafter := (Prod.ext_iff.1 (account_removeMessage st m r did (h.sent hm).1)).1
    rw [inboxOf_removeMessage]
    by_cases hto : did = r.toDidHash
    · subst hto
      have hmem : (r.receiveId, r.inboxEntry m) ∈ (st.inboxOf r.toDidHash).entries := h.inbox.mem hm rfl
      simp only [if_pos, AccountRecord.queues] at hafter
      rw [hafter, update_self, folderSize_erase hmem, ← hrecv]
      rfl
    · simp only [if_neg hto, AccountRecord.queues] at hafter
      rw [hafter, update_of_ne hto]
      exact hrecv
  · exact fun hx => h.sent (removeMessage_stored hx)
  · intro did e he
    rw [lastId_removeMessage]
    rw [inboxOf_removeMessage] at he
    by_cases hto : did = r.toDidHash
    · subst hto
      rw [update_self] at he
      exact h.inbox_le _ e (OrdMap.mem_erase.1 he).1
    · rw [update_of_ne hto] at he
      exact h.inbox_le _ e he
  · exact fun hx => h.named (removeMessage_stored hx)

theorem InboxKept.delete (h : InboxKept digest st) (messageHash : String) (authority : DeletionAuthority) :
    InboxKept digest (deleteMessage messageHash authority st).2 := by
  unfold deleteMessage
  split
  · exact h
  · rename_i record hm
    split
    · exact h
    · exact h.remove hm

theorem Kept.balanced_remove (h : Kept digest st) (hm : st.messages m = some r) :
    (st.removeMessage m r).Balanced := by
  obtain ⟨ids, hids, hcount, hbytes⟩ := h.balanced
  have hmem : m ∈ ids := (hids m).2 (by rw [hm]; rfl)
  refine ⟨ids.erase m, ?_, ?_, ?_⟩
  · intro x
    rw [removeMessage_messages, mem_erase, hids]
    by_cases hx : x = m
    · simp [hx]
    · simp [hx]
  · rw [counters_removeMessage, card_erase_of_mem hmem]
    have hpos : 0 < ids.card := card_pos.2 ⟨m, hmem⟩
    simp [incrCounter, hcount]
    omega
  · have hsum : ∑ x ∈ ids.erase m, (st.removeMessage m r).bytesOf x = ∑ x ∈ ids.erase m, st.bytesOf x := by
      refine sum_congr rfl fun x hx => ?_
      simp only [bytesOf, removeMessage_messages, update_of_ne (ne_of_mem_erase hx)]
    have hall : ∑ x ∈ ids.erase m, st.bytesOf x + r.bytes = ∑ x ∈ ids, st.bytesOf x := by
      have hr : st.bytesOf m = r.bytes := by simp [bytesOf, hm]
      rw [← hr, sum_erase_add ids st.bytesOf hmem]
    rw [counters_removeMessage, hsum]
    simp [incrCounter, hbytes, ← hall]
    omega

theorem Kept.queues_remove (h : Kept digest st) (hm : st.messages m = some r) (did : String) :
    ((st.removeMessage m r).account did).queues =
    (folderSize ((st.removeMessage m r).inboxOf did), folderSize ((st.removeMessage m r).outboxOf did)) := by
  have hsend := h.sendQueue did
  refine Prod.ext ((h.inboxes.remove hm).receiveQueue did) ?_
  · rw [account_removeMessage st m r did (h.sent hm).1]
    cases hfrom : r.fromDidHash with
    | none =>
      simp only [outboxOf_removeMessage_anonymous st m r hfrom, reduceCtorEq, if_false]
      exact hsend
    | some sender =>
      obtain ⟨sid, hsid⟩ := Option.isSome_iff_exists.1 ((h.sent hm).1 (by rw [hfrom]; rfl))
      rw [outboxOf_removeMessage st m r hfrom hsid]
      by_cases hsender : did = sender
      · subst hsender
        have hmem : (sid, r.outboxEntry m) ∈ (st.outboxOf did).entries :=
          h.outbox.mem hm (by simp [outboxPlace, hfrom, hsid])
        simp only [if_pos, update_self]
        rw [folderSize_erase hmem, ← hsend]
        rfl
      · have hne : ¬some sender = some did := fun heq => hsender (Option.some.inj heq).symm
        simp only [if_neg hne, update_of_ne hsender]
        exact hsend

theorem Kept.remove (h : Kept digest st) (hm : st.messages m = some r) : Kept digest (st.removeMessage m r) := by
  have hmessages := removeMessage_messages st m r
  have hinboxes := h.inboxes.remove hm
  constructor
  · exact hinboxes.inbox
  · rw [hmessages]
    cases hfrom : r.fromDidHash with
    | none =>
      rw [outboxOf_removeMessage_anonymous st m r hfrom]
      exact h.outbox.erase_none hm (by simp [outboxPlace, hfrom])
    | some sender =>
      obtain ⟨sid, hsid⟩ := Option.isSome_iff_exists.1 ((h.sent hm).1 (by rw [hfrom]; rfl))
      rw [outboxOf_removeMessage st m r hfrom hsid]
      exact h.outbox.erase outboxEntry_inj hm (by simp [outboxPlace, hfrom, hsid])
  · intro slot x
    rw [mem_expiry_removeMessage, h.expiry, hmessages]
    by_cases hxm : x = m
    · subst hxm
      constructor
      · rintro ⟨⟨hslot, rx, hrx, hexpires⟩, hnot⟩
        cases hm.symm.trans hrx
        exact absurd ⟨hexpires ▸ hslot, hexpires.symm, rfl⟩ hnot
      · rintro ⟨-, rx, hrx, -⟩
        simp at hrx
    · simp [hxm]
  · exact h.queues_remove hm
  · exact h.balanced_remove hm
  · exact hinboxes.sent
  · exact hinboxes.inbox_le
  · intro did e he
    rw [lastId_removeMessage]
    cases hfrom : r.fromDidHash with
    | none =>
      rw [outboxOf_removeMessage_anonymous st m r hfrom] at he
      exact h.outbox_le _ e he
    | some sender =>
      obtain ⟨sid, hsid⟩ := Option.isSome_iff_exists.1 ((h.sent hm).1 (by rw [hfrom]; rfl))
      rw [outboxOf_removeMessage st m r hfrom hsid] at he
      by_cases hsender : did = sender
      · subst hsender
        rw [update_self] at he
        exact h.outbox_le _ e (OrdMap.mem_erase.1 he).1
      · rw [update_of_ne hsender] at he
        exact h.outbox_le _ e he
  · exact hinboxes.named

theorem Kept.delete (h : Kept digest st) (messageHash : String) (authority : DeletionAuthority) :
    Kept digest (deleteMessage messageHash authority st).2 := by
  unfold deleteMessage
  split
  · exact h
  · rename_i record hm
    split
    · exact h
    · exact h.remove hm

/-! ## Storing -/

theorem folderSize_le {place : MessageRecord → Option (String × StreamId)}
    {entry : String → MessageRecord → StreamEntry}
    {index : String → OrdMap StreamId StreamEntry} (h : Indexes st.messages place entry index)
    (hentry : ∀ m r, (entry m r).msgId = m ∧ (entry m r).bytes = r.bytes) {ids : Finset String}
    (hids : ∀ m, m ∈ ids ↔ (st.messages m).isSome) (did : String) :
    (index did).length ≤ ids.card ∧ (index did).total StreamEntry.bytes ≤ ∑ m ∈ ids, st.bytesOf m := by
  have hstored : ∀ e ∈ (index did).entries, ∃ r, st.messages e.2.msgId = some r ∧ place r = some (did, e.1) ∧
      e.2.bytes = st.bytesOf e.2.msgId := by
    rintro ⟨sid, e⟩ he
    obtain ⟨m, r, hm, hplace, rfl⟩ := (h did sid e).1 he
    refine ⟨r, by rw [(hentry m r).1]; exact hm, hplace, ?_⟩
    simp [(hentry m r).1, (hentry m r).2, bytesOf, hm]
  have hnodup : ((index did).entries.map fun e => e.2.msgId).Nodup := by
    refine List.pairwise_map.2 ((index did).sorted.imp_of_mem ?_)
    intro a b ha hb hlt heq
    obtain ⟨ra, hra, hplacea, -⟩ := hstored a ha
    obtain ⟨rb, hrb, hplaceb, -⟩ := hstored b hb
    obtain rfl : ra = rb := Option.some.inj (hra.symm.trans (heq ▸ hrb))
    exact hlt.ne (Prod.mk.inj (Option.some.inj (hplacea.symm.trans hplaceb))).2
  have hsub : ((index did).entries.map fun e => e.2.msgId).toFinset ⊆ ids := by
    intro m hm
    obtain ⟨e, he, rfl⟩ := List.mem_map.1 (List.mem_toFinset.1 hm)
    obtain ⟨r, hr, -⟩ := hstored e he
    exact (hids _).2 (by rw [hr]; rfl)
  constructor
  · calc (index did).length = ((index did).entries.map fun e => e.2.msgId).toFinset.card := by
          rw [List.toFinset_card_of_nodup hnodup, List.length_map, OrdMap.length]
      _ ≤ ids.card := card_le_card hsub
  · calc (index did).total StreamEntry.bytes
        = (((index did).entries.map fun e => e.2.msgId).map st.bytesOf).sum := by
          rw [OrdMap.total, OrdMap.values, List.map_map, List.map_map]
          refine congrArg List.sum (List.map_congr_left fun e he => ?_)
          obtain ⟨r, -, -, hbytes⟩ := hstored e he
          exact hbytes
      _ = ∑ m ∈ ((index did).entries.map fun e => e.2.msgId).toFinset, st.bytesOf m :=
          (List.sum_toFinset _ hnodup).symm
      _ ≤ ∑ m ∈ ids, st.bytesOf m := sum_le_sum_of_subset hsub

/-- Fewer than `2 ^ 32` stored messages, of fewer than `2 ^ 64` bytes. -/
def MemoryState.WithinCaps (st : MemoryState) : Prop :=
  ∃ ids : Finset String, (∀ m, m ∈ ids ↔ (st.messages m).isSome) ∧ ids.card < 2 ^ 32 ∧
    ∑ m ∈ ids, st.bytesOf m < 2 ^ 64

theorem folderSize_insert (hsid : ∀ e ∈ stream.entries, e.1 < sid) (e : StreamEntry) :
    folderSize (stream.insert sid e) = ((folderSize stream).1 + 1, (folderSize stream).2 + e.bytes) := by
  simp only [folderSize, OrdMap.length_insert_of_lt hsid, OrdMap.total_insert_of_lt hsid]

theorem saturatingAdd_of_lt {count bytes n : ℕ} (hcount : count + 1 < 2 ^ 32) (hbytes : bytes + n < 2 ^ 64) :
    (saturatingAddU32 count 1, saturatingAddU64 bytes n) = (count + 1, bytes + n) := by
  unfold saturatingAddU32 saturatingAddU64
  rw [min_eq_left (by omega), min_eq_left (by omega)]

theorem folderSize_saturating {e : StreamEntry} {queue : ℕ × ℕ} (hqueue : queue = folderSize stream)
    (hlt : ∀ e ∈ stream.entries, e.1 < sid)
    (hcap : (folderSize (stream.insert sid e)).1 < 2 ^ 32 ∧ (folderSize (stream.insert sid e)).2 < 2 ^ 64) :
    (saturatingAddU32 queue.1 1, saturatingAddU64 queue.2 e.bytes) = folderSize (stream.insert sid e) := by
  rw [folderSize_insert hlt, ← hqueue] at hcap ⊢
  exact saturatingAdd_of_lt hcap.1 hcap.2

variable {st' : MemoryState}

theorem InboxKept.store_cases {digest : String → String} {st : MemoryState}
    (hstores : Stores (digest r.body) r st st') {x : String} (hx : st'.messages x = some rx) :
    (x = digest r.body ∧ rx = r) ∨ st.messages x = some rx := by
  rw [hstores.messages] at hx
  by_cases hxm : x = digest r.body
  · subst hxm
    rw [update_self] at hx
    exact .inl ⟨rfl, (Option.some.inj hx).symm⟩
  · rw [update_of_ne hxm] at hx
    exact .inr hx

theorem InboxKept.store (h : InboxKept digest st) (hstores : Stores (digest r.body) r st st')
    (hm : st.messages (digest r.body) = none) (hcaps : st'.WithinCaps)
    (hsent : r.fromDidHash.isSome ↔ r.sendId.isSome) : InboxKept digest st' := by
  have hlast : st.lastId ≤ st'.lastId := (hstores.receiveId_gt.trans_le hstores.receiveId_le).le
  have hlt : ∀ e ∈ (st.inboxOf r.toDidHash).entries, e.1 < r.receiveId :=
    fun e he => (h.inbox_le _ e he).trans_lt hstores.receiveId_gt
  have hinbox : Indexes st'.messages inboxPlace (fun m r => r.inboxEntry m) st'.inboxOf := by
    rw [hstores.messages, hstores.inboxOf]
    exact h.inbox.insert hm rfl fun e he => (hlt e he).ne
  refine ⟨hinbox, ?_, ?_, ?_, ?_⟩
  · intro did
    have hafter := (Prod.ext_iff.1 (hstores.account did)).1
    by_cases hto : did = r.toDidHash
    · subst hto
      obtain ⟨ids, hids, hcount, hbytes⟩ := hcaps
      have hcap := folderSize_le hinbox (fun _ _ => ⟨rfl, rfl⟩) hids r.toDidHash
      simp only [if_pos, AccountRecord.queues] at hafter
      rw [hstores.inboxOf, update_self] at hcap ⊢
      exact hafter.trans (folderSize_saturating (h.receiveQueue _) hlt
        ⟨hcap.1.trans_lt hcount, hcap.2.trans_lt hbytes⟩)
    · simp only [if_neg hto, AccountRecord.queues] at hafter
      rw [hafter, hstores.inboxOf, update_of_ne hto]
      exact h.receiveQueue did
  · intro x rx hx
    rcases InboxKept.store_cases hstores hx with ⟨-, rfl⟩ | hx
    · exact hsent
    · exact h.sent hx
  · intro did e he
    rw [hstores.inboxOf] at he
    by_cases hto : did = r.toDidHash
    · subst hto
      rw [update_self] at he
      rcases OrdMap.mem_insert.1 he with rfl | ⟨he, -⟩
      · exact hstores.receiveId_le
      · exact (h.inbox_le _ e he).trans hlast
    · rw [update_of_ne hto] at he
      exact (h.inbox_le _ e he).trans hlast
  · intro x rx hx
    rcases InboxKept.store_cases hstores hx with ⟨rfl, rfl⟩ | hx
    · rfl
    · exact h.named hx

theorem Kept.outbox_lt (h : Kept digest st) {sender : String} (hstores : Stores m r st st')
    (hsid : r.sendId = some sid) : ∀ e ∈ (st.outboxOf sender).entries, e.1 < sid := fun e he =>
  ((h.outbox_le _ e he).trans_lt hstores.receiveId_gt).trans (hstores.sendId_gt sid hsid).1

theorem Stores.outboxOf_anonymous (hstores : Stores m r st st') (hfrom : r.fromDidHash = none) :
    st'.outboxOf = st.outboxOf := by
  funext d
  simp only [MemoryState.outboxOf, (hstores.outbox_none hfrom).2]

section

variable (h : Kept digest st) (hstores : Stores m r st st') (hm : st.messages m = none)
include h hstores hm

theorem Kept.outbox_store : Indexes st'.messages outboxPlace (fun m r => r.outboxEntry m)
    st'.outboxOf := by
  rw [hstores.messages]
  cases hfrom : r.fromDidHash with
  | none =>
    rw [hstores.outboxOf_anonymous hfrom]
    exact h.outbox.insert_none hm (by simp [outboxPlace, hfrom])
  | some sender =>
    obtain ⟨sid, hsid, houtbox⟩ := hstores.outboxOf hfrom
    rw [houtbox]
    refine h.outbox.insert hm (by simp [outboxPlace, hfrom, hsid]) fun e he => ?_
    exact (h.outbox_lt hstores hsid e he).ne

theorem Kept.sendQueue_store (hcaps : st'.WithinCaps) (did : String) :
    ((st'.account did).sendQueueCount, (st'.account did).sendQueueBytes) = folderSize (st'.outboxOf did) := by
  have hafter := (Prod.ext_iff.1 (hstores.account did)).2
  by_cases hsender : r.fromDidHash = some did
  · obtain ⟨sid, hsid, houtbox⟩ := hstores.outboxOf hsender
    obtain ⟨ids, hids, hcount, hbytes⟩ := hcaps
    have hcap := folderSize_le (h.outbox_store hstores hm) (fun _ _ => ⟨rfl, rfl⟩) hids did
    simp only [if_pos hsender, AccountRecord.queues] at hafter
    rw [houtbox, update_self] at hcap ⊢
    exact hafter.trans (folderSize_saturating (h.sendQueue _) (h.outbox_lt hstores hsid)
      ⟨hcap.1.trans_lt hcount, hcap.2.trans_lt hbytes⟩)
  · simp only [if_neg hsender, AccountRecord.queues] at hafter
    rw [hafter, h.sendQueue]
    cases hfrom : r.fromDidHash with
    | none => rw [hstores.outboxOf_anonymous hfrom]
    | some sender =>
      obtain ⟨sid, -, houtbox⟩ := hstores.outboxOf hfrom
      have hne : did ≠ sender := fun heq => hsender (heq ▸ hfrom)
      rw [houtbox, update_of_ne hne]

theorem Kept.balanced_store : st'.Balanced := by
  obtain ⟨ids, hids, hcount, hbytes⟩ := h.balanced
  have hnotMem : m ∉ ids := by
    rw [hids, hm]
    exact Bool.false_ne_true
  refine ⟨insert m ids, ?_, ?_, ?_⟩
  · intro x
    rw [hstores.messages, mem_insert, hids]
    by_cases hx : x = m
    · simp [hx]
    · simp [hx]
  · rw [hstores.counters, card_insert_of_notMem hnotMem]
    simp [incrCounter, hcount]
    omega
  · have hsum : ∑ x ∈ ids, st'.bytesOf x = ∑ x ∈ ids, st.bytesOf x := by
      refine sum_congr rfl fun x hx => ?_
      have hne : x ≠ m := fun heq => hnotMem (heq ▸ hx)
      simp only [bytesOf, hstores.messages, update_of_ne hne]
    have hnew : st'.bytesOf m = r.bytes := by simp [bytesOf, hstores.messages]
    rw [hstores.counters, sum_insert hnotMem, hsum, hnew]
    simp [incrCounter, hbytes]
    omega

end

theorem Kept.store (h : Kept digest st) (hstores : Stores (digest r.body) r st st')
    (hm : st.messages (digest r.body) = none) (hcaps : st'.WithinCaps)
    (hsent : r.fromDidHash.isSome ↔ r.sendId.isSome) : Kept digest st' := by
  have hlast : st.lastId ≤ st'.lastId := (hstores.receiveId_gt.trans_le hstores.receiveId_le).le
  have hinboxes := h.inboxes.store hstores hm hcaps hsent
  constructor
  · exact hinboxes.inbox
  · exact h.outbox_store hstores hm
  · intro slot x
    rw [hstores.expiry, h.expiry, hstores.messages]
    by_cases hxm : x = digest r.body
    · subst hxm
      simp only [hm, reduceCtorEq, false_and, exists_false, and_false, false_or, and_true, update_self,
        Option.some.injEq]
      constructor
      · rintro ⟨hne, rfl⟩
        exact ⟨hne, r, rfl, rfl⟩
      · rintro ⟨hne, _, rfl, rfl⟩
        exact ⟨hne, rfl⟩
    · simp [hxm]
  · exact fun did => Prod.ext (hinboxes.receiveQueue did) (h.sendQueue_store hstores hm hcaps did)
  · exact h.balanced_store hstores hm
  · exact hinboxes.sent
  · exact hinboxes.inbox_le
  · intro did e he
    cases hfrom : r.fromDidHash with
    | none =>
      rw [hstores.outboxOf_anonymous hfrom] at he
      exact (h.outbox_le _ e he).trans hlast
    | some sender =>
      obtain ⟨sid, hsid, houtbox⟩ := hstores.outboxOf hfrom
      rw [houtbox] at he
      by_cases hsender : did = sender
      · subst hsender
        rw [update_self] at he
        rcases OrdMap.mem_insert.1 he with rfl | ⟨he, -⟩
        · exact (hstores.sendId_gt sid hsid).2
        · exact (h.outbox_le _ e he).trans hlast
      · rw [update_of_ne hsender] at he
        exact (h.outbox_le _ e he).trans hlast
  · exact hinboxes.named

end

end AffinidiTdk.Store
