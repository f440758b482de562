/-
Message accounting in the two in-process stores: what is stored, deleted and purged leaves the same accounts, the
same folders and the same messages in both, as long as no message is sent by its recipient. The embedded store
reads both accounts before it writes them, so of such a message it counts only what is sent.
-/
import AffinidiTdk.Store.FjallEffects
import AffinidiTdk.Store.Pagination

namespace AffinidiTdk.Store

open Function List Option OrdMap MemoryState AccountRecord
open Acl Bytes

/-! ## Calls -/

/-- The calls that touch messages. -/
inductive MessageOp
  | accountAdd (didHash : String) (acls : MediatorACLSet) (queueLimit : Option ℕ)
  | storeMessage (nowMs : ℕ) (message toDidHash : String) (fromHash : Option String) (expiresAt : ℕ)
  | deleteMessage (messageHash : String) (authority : DeletionAuthority)
  | purgeFolder (didHash : String) (folder : Folder)

/-- What a call returns. -/
inductive MessageReply
  | account (account : Account)
  | stored (msgId : String)
  | deleted
  | purged (count bytes : ℕ)

namespace MessageOp

/-- The hash of every DID has `n` bytes, and the clock is read as a `u64`. -/
def WellFormed (n : ℕ) : MessageOp → Prop
  | storeMessage nowMs _ toDidHash fromHash _ => nowMs < 2 ^ 64 ∧ (ofString toDidHash).length = n ∧
    ∀ sender, senderOf fromHash = some sender → (ofString sender).length = n
  | purgeFolder didHash _ => (ofString didHash).length = n
  | accountAdd _ _ _ | deleteMessage _ _ => True

/-- No message goes to its own sender. -/
def ToAnother : MessageOp → Prop
  | storeMessage _ _ toDidHash fromHash _ => senderOf fromHash ≠ some toDidHash
  | accountAdd _ _ _ | deleteMessage _ _ | purgeFolder _ _ => True

end MessageOp

section

variable (digest : String → String)

def MemoryState.message (op : MessageOp) (st : MemoryState) : Except MediatorError MessageReply × MemoryState :=
  match op with
  | .accountAdd didHash acls queueLimit => (accountAdd didHash acls queueLimit st).map (Except.map .account) id
  | .storeMessage nowMs message toDidHash fromHash expiresAt =>
    (storeMessage digest nowMs message toDidHash fromHash expiresAt st).map (Except.map .stored) id
  | .deleteMessage messageHash authority =>
    (deleteMessage messageHash authority st).map (Except.map fun _ => .deleted) id
  | .purgeFolder didHash folder =>
    (purgeFolder didHash folder st).map (Except.map fun counts => .purged counts.1 counts.2) id

def Fjall.FjallState.message (op : MessageOp) (st : FjallState) : Except MediatorError MessageReply × FjallState :=
  match op with
  | .accountAdd didHash acls queueLimit => (accountAdd didHash acls queueLimit st).map (Except.map .account) id
  | .storeMessage nowMs message toDidHash fromHash expiresAt =>
    (storeMessage digest nowMs message toDidHash fromHash expiresAt st).map (Except.map .stored) id
  | .deleteMessage messageHash authority =>
    (deleteMessage messageHash authority st).map (Except.map fun _ => .deleted) id
  | .purgeFolder didHash folder =>
    (purgeFolder didHash folder st).map (Except.map fun counts => .purged counts.1 counts.2) id

/-! ## Agreement -/

/-- An error without the name of the store, which stands in it for a session. -/
def MediatorError.unnamed : MediatorError → MediatorError
  | .internalError code _ msg => .internalError code "" msg
  | .databaseError code _ msg => .databaseError code "" msg
  | e => e

/-- The stores answer alike about accounts, folders and messages. -/
structure SameMessages (n : ℕ) (memory : MemoryState) (fjall : Fjall.FjallState) : Prop where
  queues : ∀ didHash, (memory.accounts didHash).map AccountRecord.queues =
    (fjall.accounts.get? (ofString didHash)).map Fjall.StoredAccount.queues
  listed : ∀ didHash folder limit, (ofString didHash).length = n →
    (listMessages didHash folder none limit memory).1 = (Fjall.listMessages didHash folder none limit fjall).1
  get : ∀ didHash msgId, (getMessage didHash msgId memory).1 = (Fjall.getMessage didHash msgId fjall).1

/-- The stores agree in every state of the run, and every call returns the same in both. -/
def SameThroughout (n : ℕ) : List MessageOp → MemoryState → Fjall.FjallState → Prop
  | [], memory, fjall => SameMessages n memory fjall
  | op :: ops, memory, fjall =>
    SameMessages n memory fjall ∧
      (memory.message digest op).1.mapError MediatorError.unnamed =
        (fjall.message digest op).1.mapError MediatorError.unnamed ∧
      SameThroughout n ops (memory.message digest op).2 (fjall.message digest op).2

end

/-! ## Folders -/

/-- The folders of all DIDs, as one partition keeps them. -/
structure SameFolders (n : ℕ) (folders : String → OrdMap StreamId StreamEntry) (p : Fjall.Partition StreamEntry) :
    Prop where
  keyed : ∀ e ∈ p.entries, ∃ did sid, e.1 = Fjall.streamKey did sid ∧ Fjall.Words sid ∧ (ofString did).length = n
  words : ∀ did, ∀ e ∈ (folders did).entries, Fjall.Words e.1
  same : ∀ did sid, (ofString did).length = n → Fjall.Words sid →
    p.get? (Fjall.streamKey did sid) = (folders did).get? sid

namespace SameFolders

open Fjall

variable {n : ℕ} {folders : String → OrdMap StreamId StreamEntry} {p : Fjall.Partition StreamEntry} {did : String}
  {sid : StreamId}

theorem streamKey_inj {did' : String} {sid' : StreamId} (hlength : (ofString did).length = (ofString did').length)
    (hwords : Words sid) (hwords' : Words sid') (h : streamKey did sid = streamKey did' sid') :
    did = did' ∧ sid = sid' := by
  obtain ⟨hdid, hsid⟩ := append_inj h hlength
  have hdecode := congrArg decodeStreamId hsid
  rw [decode_encodeStreamId hwords, decode_encodeStreamId hwords'] at hdecode
  exact ⟨ofString_injective hdid, some.inj hdecode⟩

theorem insert (h : SameFolders n folders p) (hdid : (ofString did).length = n) (hwords : Words sid)
    (e : StreamEntry) :
    SameFolders n (update folders did ((folders did).insert sid e)) (p.insert (streamKey did sid) e) := by
  refine ⟨fun x hx => ?_, fun k x hx => ?_, fun k s hk hs => ?_⟩
  · rcases mem_insert.1 hx with rfl | ⟨hx, -⟩
    · exact ⟨did, sid, rfl, hwords, hdid⟩
    · exact h.keyed x hx
  · by_cases hk : k = did
    · rw [hk, update_self] at hx
      rcases mem_insert.1 hx with rfl | ⟨hx, -⟩
      · exact hwords
      · exact h.words did x hx
    · rw [update_of_ne hk] at hx
      exact h.words k x hx
  · rw [get?_insert]
    by_cases hk' : k = did
    · subst hk'
      rw [update_self, get?_insert]
      by_cases hs' : s = sid
      · rw [hs', if_pos rfl, if_pos rfl]
      · rw [if_neg fun heq => hs' (streamKey_inj rfl hs hwords heq).2, if_neg hs', h.same k s hk hs]
    · rw [update_of_ne hk', if_neg fun heq => hk' (streamKey_inj (hk.trans hdid.symm) hs hwords heq).1,
        h.same k s hk hs]

section

variable (h : SameFolders n folders p) (hdid : (ofString did).length = n)
include h hdid

theorem erase (hwords : Words sid) : SameFolders n (update folders did ((folders did).erase sid))
    (p.erase (streamKey did sid)) := by
  refine ⟨fun x hx => h.keyed x (mem_erase.1 hx).1, fun k x hx => ?_, fun k s hk hs => ?_⟩
  · by_cases hk : k = did
    · rw [hk, update_self] at hx
      exact h.words did x (mem_erase.1 hx).1
    · rw [update_of_ne hk] at hx
      exact h.words k x hx
  · rw [get?_erase]
    by_cases hk' : k = did
    · subst hk'
      rw [update_self, get?_erase]
      by_cases hs' : s = sid
      · rw [hs', if_pos rfl, if_pos rfl]
      · rw [if_neg fun heq => hs' (streamKey_inj rfl hs hwords heq).2, if_neg hs', h.same k s hk hs]
    · rw [update_of_ne hk', if_neg fun heq => hk' (streamKey_inj (hk.trans hdid.symm) hs hwords heq).1,
        h.same k s hk hs]

/-! ## Scans -/

/-- The partition, as the inbox of a store. -/
def store (p : Fjall.Partition StreamEntry) : FjallState := { (default : FjallState) with inbox := p }

theorem toKeyed : Keyed did (store p).inbox := by
  intro e he
  obtain ⟨did', sid, hkey, hwords, hlength⟩ := h.keyed e he
  exact ⟨did', sid, hkey, hwords, hlength.trans hdid.symm⟩

theorem inboxOf_eq : inboxOf (store p) did = (folders did).entries := by
  have hkeyed := h.toKeyed hdid
  -- both are lists in order, so the members decide
  refine congrArg entries
    (@ext_get? _ _ _ ⟨inboxOf (store p) did, inboxOf_sorted hkeyed⟩ (folders did) fun sid => ?_)
  ext e
  rw [get?_eq_some_iff]
  constructor
  · intro hmem
    obtain ⟨x, hx, hown⟩ := mem_filterMap.1 hmem
    obtain ⟨did', sid', hkey, hwords, hlength⟩ := hkeyed x hx
    rw [hkey, ownId_streamKey hwords hlength] at hown
    by_cases hsame : did' = did
    · rw [if_pos hsame] at hown
      obtain ⟨rfl, rfl⟩ := Prod.mk.inj (some.inj hown)
      rw [← h.same did sid' hdid hwords, get?_eq_some_iff, ← hsame, ← hkey]
      exact hx
    · rw [if_neg hsame] at hown
      cases hown
  · intro hget
    have hwords := h.words did _ (get?_eq_some_iff.1 hget)
    rw [← h.same did sid hdid hwords, get?_eq_some_iff] at hget
    refine mem_filterMap.2 ⟨_, hget, ?_⟩
    rw [ownId_streamKey hwords rfl, if_pos rfl]
    rfl

end

theorem startKey_eq (did : String) : streamKey did (toLex (0, 0)) = startKey did none := by
  have hzero : encodeStreamId (toLex (0, 0)) = List.replicate 16 0 := by decide
  rw [streamKey, hzero]
  rfl

theorem scan (h : SameFolders n folders p) (hdid : (ofString did).length = n) (limit : ℕ) :
    ((p.range (streamKey did (toLex (0, 0))) (streamKey did .max)).take limit).filterMap
        (fun e => (ownId did e.1).map fun sid => (sid, e.2)) = (folders did).entries.take limit := by
  rw [startKey_eq, ← h.inboxOf_eq hdid]
  exact scan_eq (h.toKeyed hdid) (by simp) limit

theorem own_of_range (h : SameFolders n folders p) (hdid : (ofString did).length = n) {e : List ℕ × StreamEntry}
    (he : e ∈ p.range (streamKey did (toLex (0, 0))) (streamKey did .max)) :
    ∃ sid, Words sid ∧ e.1 = streamKey did sid ∧ ownKey did e.1 = true ∧ ownId did e.1 = some sid := by
  obtain ⟨hmem, hrange⟩ := mem_filter.1 he
  obtain ⟨did', sid, hkey, hwords, hlength⟩ := h.toKeyed hdid e hmem
  rw [startKey_eq, hkey] at hrange
  obtain ⟨rfl, -⟩ := (scanned_iff hwords hlength (by simp)).1 (of_decide_eq_true hrange)
  have hown : ownId did' e.1 = some sid := by rw [hkey, ownId_streamKey hwords rfl, if_pos rfl]
  refine ⟨sid, hwords, hkey, ?_, hown⟩
  by_contra hnot
  rw [ownId, if_neg hnot] at hown
  cases hown

theorem mem_range (hdid : (ofString did).length = n) {did' : String} (hlength : (ofString did').length = n)
    (hwords : Words sid) {e : StreamEntry} (he : (streamKey did' sid, e) ∈ p.entries) :
    (streamKey did' sid, e) ∈ p.range (streamKey did (toLex (0, 0))) (streamKey did .max) ↔ did' = did := by
  have hiff := @scanned_iff did did' sid hwords (hlength.trans hdid.symm) none (by simp)
  rw [startKey_eq]
  simp only [Partition.range, mem_filter, he, true_and, decide_eq_true_eq, hiff]
  exact and_iff_left (by simp)

theorem drop (h : SameFolders n folders p) (hdid : (ofString did).length = n) :
    SameFolders n (update folders did .empty)
      ((((p.range (streamKey did (toLex (0, 0))) (streamKey did .max)).filter fun e => ownKey did e.1).map
        Prod.fst).foldl (fun p k => p.erase k) p) := by
  have hkeys : ∀ k s e, (ofString k).length = n → Words s → (streamKey k s, e) ∈ p.entries →
      (streamKey k s ∉ ((p.range (streamKey did (toLex (0, 0))) (streamKey did .max)).filter
        fun e => ownKey did e.1).map Prod.fst ↔ k ≠ did) := by
    intro k s e hk hs he
    refine not_congr ⟨fun hin => ?_, fun heq => ?_⟩
    · obtain ⟨x, hx, hkey⟩ := List.mem_map.1 hin
      obtain ⟨sid, hsid, hown, -, -⟩ := h.own_of_range hdid (mem_of_mem_filter hx)
      exact (streamKey_inj (hk.trans hdid.symm) hs hsid (hkey.symm.trans hown)).1
    · have hrange := (mem_range hdid hk hs he).2 heq
      obtain ⟨-, -, -, hown, -⟩ := h.own_of_range hdid hrange
      exact List.mem_map.2 ⟨_, mem_filter.2 ⟨hrange, hown⟩, rfl⟩
  refine ⟨fun x hx => h.keyed x (mem_foldl_erase.1 hx).1, fun k x hx => ?_, fun k s hk hs => ?_⟩
  · by_cases hkd : k = did
    · rw [hkd, update_self] at hx
      cases hx
    · rw [update_of_ne hkd] at hx
      exact h.words k x hx
  · ext e
    rw [get?_eq_some_iff, mem_foldl_erase, get?_eq_some_iff]
    by_cases hkd : k = did
    · rw [hkd, update_self]
      refine iff_of_false ?_ (by simp [empty])
      rintro ⟨he, hnot⟩
      rw [← hkd] at he
      refine (hkeys k s e hk hs he).1 ?_ hkd
      rwa [hkd]
    · rw [update_of_ne hkd, ← get?_eq_some_iff, ← get?_eq_some_iff, h.same k s hk hs]
      refine and_iff_left_of_imp fun hget => ?_
      rw [← h.same k s hk hs, get?_eq_some_iff] at hget
      exact (hkeys k s e hk hs hget).2 hkd

theorem msgIds (h : SameFolders n folders p) (hdid : (ofString did).length = n) :
    ((p.range (streamKey did (toLex (0, 0))) (streamKey did .max)).filter fun e => ownKey did e.1).map
        (fun e => e.2.msgId) = (folders did).values.map StreamEntry.msgId := by
  have hall := h.scan hdid ((p.range (streamKey did (toLex (0, 0))) (streamKey did .max)).length +
    (folders did).entries.length)
  rw [take_of_length_le (Nat.le_add_right ..), take_of_length_le (Nat.le_add_left ..)] at hall
  have hfilter : (p.range (streamKey did (toLex (0, 0))) (streamKey did .max)).filter (fun e => ownKey did e.1) =
      p.range (streamKey did (toLex (0, 0))) (streamKey did .max) := by
    refine filter_eq_self.2 fun e he => ?_
    obtain ⟨-, -, -, hown, -⟩ := h.own_of_range hdid he
    exact hown
  rw [hfilter, values, List.map_map, ← hall, map_filterMap, ← filterMap_eq_map]
  refine filterMap_congr fun e he => ?_
  obtain ⟨sid, -, -, -, hid⟩ := h.own_of_range hdid he
  rw [hid]
  rfl

end SameFolders

/-! ## Correspondence -/

/-- The account as the embedded store writes it. -/
def AccountRecord.stored (record : AccountRecord) : Fjall.StoredAccount :=
  { role := record.role
    acls := record.acls.toU64
    sendQueueCount := record.sendQueueCount
    sendQueueBytes := record.sendQueueBytes
    receiveQueueCount := record.receiveQueueCount
    receiveQueueBytes := record.receiveQueueBytes
    queueSendLimit := record.queueSendLimit
    queueReceiveLimit := record.queueReceiveLimit }

/-- A message between two DIDs, with the ids of its entries. -/
structure MessageRecord.Ordinary (n : ℕ) (record : MessageRecord) : Prop where
  recipient : (ofString record.toDidHash).length = n
  receiveId : Fjall.Words record.receiveId
  anonymous : record.fromDidHash = none → record.sendId = none
  sent : ∀ sender, record.fromDidHash = some sender → (ofString sender).length = n ∧ sender ≠ record.toDidHash ∧
    ∃ sid, record.sendId = some sid ∧ Fjall.Words sid

def MemoryState.foldersOf (st : MemoryState) : Folder → String → OrdMap StreamId StreamEntry
  | .inbox => st.inboxOf
  | .outbox => st.outboxOf

/-- An id of the clock's time, with not more than `m` ids before it at that time. -/
def Bounded (m : ℕ) (sid : StreamId) : Prop := (ofLex sid).1 < 2 ^ 64 ∧ (ofLex sid).2 ≤ m

/-- The two stores after at most `m` calls. -/
structure Accords (n m : ℕ) (memory : MemoryState) (fjall : Fjall.FjallState) : Prop where
  lastId : fjall.lastId = memory.lastId
  bounded : Bounded (2 * m) memory.lastId
  messages : ∀ id, fjall.messages.get? (ofString id) = memory.messages id
  accounts : ∀ did, fjall.accounts.get? (ofString did) = (memory.accounts did).map AccountRecord.stored
  folders : ∀ folder, SameFolders n (memory.foldersOf folder) (fjall.folder folder)
  ordinary : ∀ id record, memory.messages id = some record → record.Ordinary n

section

variable {n m : ℕ} {memory : MemoryState} {fjall : Fjall.FjallState}

variable {sid : StreamId}

theorem words_of_bounded (h : Bounded m sid) (hm : m < 2 ^ 64) : Fjall.Words sid :=
  ⟨h.1, h.2.trans_lt hm⟩

theorem Bounded.mono (h : Bounded m sid) {m' : ℕ} (hm : m ≤ m') : Bounded m' sid :=
    ⟨h.1, h.2.trans hm⟩

/-! ## Agreement of corresponding stores -/

theorem zero_le_words : toLex (0, 0) ≤ sid := by
  refine Prod.Lex.le_iff.2 ?_
  show 0 < (ofLex sid).1 ∨ 0 = (ofLex sid).1 ∧ 0 ≤ (ofLex sid).2
  omega

theorem words_le_max (h : Fjall.Words sid) : sid ≤ .max := by
  refine Prod.Lex.le_iff.2 ?_
  obtain ⟨hms, hseq⟩ := h
  show (ofLex sid).1 < 2 ^ 64 - 1 ∨ (ofLex sid).1 = 2 ^ 64 - 1 ∧ (ofLex sid).2 ≤ 2 ^ 64 - 1
  omega

variable {didHash : String}

theorem listMessages_eq {folder : Folder}
    (hwords : ∀ e ∈ (memory.foldersOf folder didHash).entries, Fjall.Words e.1) (limit : ℕ) :
    (listMessages didHash folder none limit memory).1 =
      .ok (((memory.foldersOf folder didHash).entries.take limit).map fun e => e.2.listElement folder e.1) := by
  have hall : ∀ stream : OrdMap StreamId StreamEntry, (∀ e ∈ stream.entries, Fjall.Words e.1) →
      (stream.entries.filter fun e => decide (toLex (0, 0) ≤ e.1 ∧ e.1 ≤ StreamId.max)) = stream.entries := by
    intro stream hstream
    refine filter_eq_self.2 fun e he => ?_
    exact decide_eq_true ⟨zero_le_words, words_le_max (hstream e he)⟩
  cases folder with
  | inbox =>
    have hfolder : memory.foldersOf .inbox didHash = (memory.inbox didHash).getD .empty := rfl
    rw [hfolder] at hwords ⊢
    unfold listMessages folderStream
    dsimp only [getD_none]
    cases hstream : memory.inbox didHash with
    | none => simp [empty]
    | some stream =>
      rw [hstream, getD_some] at hwords
      rw [getD_some]
      simp only [hall stream hwords]
  | outbox =>
    have hfolder : memory.foldersOf .outbox didHash = (memory.outbox didHash).getD .empty := rfl
    rw [hfolder] at hwords ⊢
    unfold listMessages folderStream
    dsimp only [getD_none]
    cases hstream : memory.outbox didHash with
    | none => simp [empty]
    | some stream =>
      rw [hstream, getD_some] at hwords
      rw [getD_some]
      simp only [hall stream hwords]

theorem Accords.sameMessages (h : Accords n m memory fjall) : SameMessages n memory fjall := by
  refine ⟨fun did => ?_, fun did folder limit hdid => ?_, fun did msgId => ?_⟩
  · rw [h.accounts, Option.map_map]
    rfl
  · have hfolder := h.folders folder
    rw [listMessages_eq (hfolder.words did) limit, ← hfolder.scan hdid limit, map_filterMap]
    unfold Fjall.listMessages
    dsimp only [getD_none]
    refine congrArg Except.ok (filterMap_congr fun e _ => ?_)
    unfold Fjall.ownId
    by_cases hown : Fjall.ownKey did e.1 = true
    · rw [if_pos hown, if_pos hown, Option.map_map]
      rfl
    · rw [if_neg hown, if_neg hown]
      rfl
  · unfold getMessage Fjall.getMessage
    rw [h.messages]

/-! ## Stream ids -/

theorem Fjall.allocStreamId_lastId (st : FjallState) (nowMs : ℕ) :
    (st.allocStreamId nowMs).2.lastId = (st.allocStreamId nowMs).1 := by
  unfold FjallState.allocStreamId
  split <;> rfl

theorem allocStreamId_same (h : fjall.lastId = memory.lastId) (nowMs : ℕ) :
    (fjall.allocStreamId nowMs).1 = (memory.allocStreamId nowMs).1 ∧
      (fjall.allocStreamId nowMs).2.lastId = (memory.allocStreamId nowMs).2.lastId := by
  have hms : fjall.lastStreamMs = memory.lastStreamMs := congrArg (fun sid => (ofLex sid).1) h
  have hseq : fjall.nextStreamSeq = memory.nextStreamSeq := congrArg (fun sid => (ofLex sid).2) h
  rw [(Fjall.allocStreamId_lastId fjall nowMs), allocStreamId_lastId]
  refine (and_self_iff).2 ?_
  unfold Fjall.FjallState.allocStreamId allocStreamId
  rw [hms, hseq]
  by_cases hnow : nowMs > memory.lastStreamMs
  · rw [if_pos hnow, if_pos hnow]
  · rw [if_neg hnow, if_neg hnow]

theorem bounded_alloc (h : Bounded m memory.lastId) {nowMs : ℕ} (hnow : nowMs < 2 ^ 64) :
    Bounded (m + 1) (memory.allocStreamId nowMs).1 := by
  obtain ⟨hms, hseq⟩ := h
  unfold allocStreamId
  by_cases hlater : nowMs > memory.lastStreamMs
  · rw [if_pos hlater]
    exact ⟨hnow, Nat.zero_le _⟩
  · rw [if_neg hlater]
    exact ⟨hms, Nat.succ_le_succ hseq⟩

/-! ## Storing -/

section

variable {digest : String → String} {nowMs : ℕ} {message toDidHash : String} {fromHash : Option String}
  {expiresAt : ℕ}

theorem storedRecord_same (h : fjall.lastId = memory.lastId) :
    Fjall.storedRecord nowMs message toDidHash fromHash expiresAt fjall =
      storedRecord nowMs message toDidHash fromHash expiresAt memory := by
  obtain ⟨hfirst, hlast⟩ := allocStreamId_same h nowMs
  obtain ⟨hsecond, -⟩ := allocStreamId_same hlast nowMs
  unfold Fjall.storedRecord storedRecord
  rw [hfirst, hsecond]

theorem storeMessage_lastId (digest : String → String) (nowMs : ℕ) (message toDidHash : String)
    (fromHash : Option String) (expiresAt : ℕ) (memory : MemoryState) (fjall : Fjall.FjallState) :
    (storeMessage digest nowMs message toDidHash fromHash expiresAt memory).2.lastId =
        (storedRecord nowMs message toDidHash fromHash expiresAt memory).sendId.getD
          (storedRecord nowMs message toDidHash fromHash expiresAt memory).receiveId ∧
      (Fjall.storeMessage digest nowMs message toDidHash fromHash expiresAt fjall).2.lastId =
        (Fjall.storedRecord nowMs message toDidHash fromHash expiresAt fjall).sendId.getD
          (Fjall.storedRecord nowMs message toDidHash fromHash expiresAt fjall).receiveId := by
  have hindex : ∀ (st : MemoryState) id, (st.indexExpiry expiresAt id).lastId = st.lastId := fun st id =>
    (indexExpiry_fields expiresAt st id).2.2.2.2
  by_cases hsender : (fromHash.filter fun s => !s.isEmpty).getD "ANONYMOUS" = "ANONYMOUS"
  · have hnone : senderOf fromHash = none := if_pos hsender
    constructor
    · unfold storeMessage storedRecord
      simp only [hsender, hnone, ne_eq, not_true, if_false, if_true, map_none, getD_none]
      exact hindex _ _
    · unfold Fjall.storeMessage Fjall.storedRecord
      simp only [hsender, hnone, ne_eq, not_true, if_false, if_true, map_none, getD_none]
      exact Fjall.allocStreamId_lastId fjall nowMs
  · have hsome : senderOf fromHash = some ((fromHash.filter fun s => !s.isEmpty).getD "ANONYMOUS") := if_neg hsender
    constructor
    · unfold storeMessage storedRecord
      simp only [hsender, hsome, ne_eq, not_false_eq_true, if_true, if_false, map_some, getD_some]
      exact hindex _ _
    · unfold Fjall.storeMessage Fjall.storedRecord
      simp only [hsender, hsome, ne_eq, not_false_eq_true, if_true, if_false, map_some, getD_some]
      exact Fjall.allocStreamId_lastId _ nowMs

theorem storeMessage_accounts (digest : String → String) (nowMs : ℕ) (message : String) (expiresAt : ℕ)
    (memory : MemoryState) (hother : senderOf fromHash ≠ some toDidHash) (did : String) :
    ((storeMessage digest nowMs message toDidHash fromHash expiresAt memory).2.accounts did).map
    stored = if senderOf fromHash = some did then some
    ((((memory.accounts did).map stored).getD default).sent message.utf8ByteSize) else if did =
    toDidHash then some ((((memory.accounts did).map stored).getD default).received
    message.utf8ByteSize) else (memory.accounts did).map stored := by
  have hdefault : ∀ x : Option AccountRecord, (x.map stored).getD default =
    (x.getD default).stored := by
    intro x
    cases x <;> rfl
  by_cases hsender : (fromHash.filter fun s => !s.isEmpty).getD "ANONYMOUS" = "ANONYMOUS"
  · have hnone : senderOf fromHash = none := if_pos hsender
    unfold storeMessage
    simp only [hsender, hnone, ne_eq, not_true, if_false, indexExpiry_accounts, incrCounter_accounts,
      upsertAccount_accounts, allocStreamId_accounts, reduceCtorEq, hdefault]
    split_ifs with hto
    · rw [hto]
      rfl
    · rfl
  · have hsome : senderOf fromHash = some ((fromHash.filter fun s => !s.isEmpty).getD "ANONYMOUS") := if_neg hsender
    rw [hsome] at hother ⊢
    unfold storeMessage
    generalize (fromHash.filter fun s => !s.isEmpty).getD "ANONYMOUS" = sender at hsender hother ⊢
    simp only [hsender, ne_eq, not_false_eq_true, if_true, indexExpiry_accounts, incrCounter_accounts,
      upsertAccount_accounts, allocStreamId_accounts, Option.some.injEq, hdefault]
    have hne : sender ≠ toDidHash := fun heq => hother (congrArg some heq)
    by_cases hto : did = toDidHash
    · subst hto
      rw [if_pos rfl, if_neg (Ne.symm hne), if_neg hne, if_pos rfl]
      rfl
    · rw [if_neg hto, if_neg hto]
      by_cases hfrom : did = sender
      · rw [if_pos hfrom, if_pos hfrom.symm, hfrom]
        rfl
      · rw [if_neg hfrom, if_neg fun heq => hfrom heq.symm]

theorem storedRecord_ordinary (message : String) (expiresAt : ℕ) (h : Bounded (2 * m) memory.lastId)
    (hm : 2 * (m + 1) < 2 ^ 64) (hnow : nowMs < 2 ^ 64) (hto : (ofString toDidHash).length = n)
    (hfrom : ∀ sender, senderOf fromHash = some sender → (ofString sender).length = n)
    (hother : senderOf fromHash ≠ some toDidHash) :
    (storedRecord nowMs message toDidHash fromHash expiresAt memory).Ordinary n ∧ Bounded (2 * (m + 1))
    ((storedRecord nowMs message toDidHash fromHash expiresAt memory).sendId.getD
    (storedRecord nowMs message toDidHash fromHash expiresAt memory).receiveId) := by
  have hfirst := bounded_alloc h hnow
  have hsecond : Bounded (2 * m + 1 + 1) ((memory.allocStreamId nowMs).2.allocStreamId nowMs).1 :=
    bounded_alloc (by rw [allocStreamId_lastId]; exact hfirst) hnow
  constructor
  · refine ⟨hto, words_of_bounded hfirst (by omega), fun hnone => ?_,
      fun sender hsender => ⟨hfrom sender hsender, ?_, ?_⟩⟩
    · show (senderOf fromHash).map _ = none
      have hnone' : senderOf fromHash = none := hnone
      rw [hnone']
      rfl
    · rintro rfl
      exact hother hsender
    · have hsender' : senderOf fromHash = some sender := hsender
      refine ⟨_, ?_, words_of_bounded hsecond (by omega)⟩
      show (senderOf fromHash).map _ = _
      rw [hsender']
      rfl
  · show Bounded _ (((senderOf fromHash).map _).getD _)
    cases senderOf fromHash with
    | none => exact hfirst.mono (by omega)
    | some sender => exact hsecond

theorem Accords.store (h : Accords n m memory fjall) (hm : 2 * (m + 1) < 2 ^ 64) (hnow : nowMs < 2 ^ 64)
    (hto : (ofString toDidHash).length = n)
    (hfrom : ∀ sender, senderOf fromHash = some sender → (ofString sender).length = n)
    (hother : senderOf fromHash ≠ some toDidHash) :
    Accords n (m + 1) (storeMessage digest nowMs message toDidHash fromHash expiresAt memory).2
      (Fjall.storeMessage digest nowMs message toDidHash fromHash expiresAt fjall).2 := by
  have hmemory := storeMessage_stores digest nowMs message toDidHash fromHash expiresAt memory
  have hfjall := Fjall.storeMessage_stores digest nowMs message toDidHash fromHash expiresAt fjall
  obtain ⟨hlastMemory, hlastFjall⟩ :=
    storeMessage_lastId digest nowMs message toDidHash fromHash expiresAt memory fjall
  obtain ⟨hordinary, hbounded⟩ := storedRecord_ordinary message expiresAt h.bounded hm hnow hto hfrom hother
  have haccounts := storeMessage_accounts digest nowMs message expiresAt memory hother
  rw [storedRecord_same h.lastId] at hfjall hlastFjall
  have hrecipient : (storedRecord nowMs message toDidHash fromHash expiresAt memory).toDidHash = toDidHash := rfl
  have hsender : (storedRecord nowMs message toDidHash fromHash expiresAt memory).fromDidHash =
    senderOf fromHash := rfl
  have hbytes : (storedRecord nowMs message toDidHash fromHash expiresAt memory).bytes = message.utf8ByteSize := rfl
  -- both backends store one record; how it was made matters no more
  generalize storedRecord nowMs message toDidHash fromHash expiresAt memory = record at *
  refine ⟨hlastFjall.trans hlastMemory.symm, hlastMemory ▸ hbounded, fun id => ?_, fun did => ?_, fun folder => ?_,
    fun id r hr => ?_⟩
  · rw [hmemory.messages, hfjall.messages, get?_insert]
    by_cases hid : id = digest message
    · rw [if_pos (congrArg ofString hid), hid, update_self]
    · rw [if_neg fun heq => hid (ofString_injective heq), update_of_ne hid, h.messages]
  · rw [haccounts did]
    have haccount : ∀ d, fjall.account d = ((memory.accounts d).map stored).getD default := fun d => by
      rw [Fjall.FjallState.account, h.accounts]
    -- the sender's account changes too, if there is a sender
    cases hfromRecord : record.fromDidHash with
    | none =>
      rw [hfjall.accounts_none hfromRecord, get?_insert, hrecipient, hbytes, ← hsender, hfromRecord,
        if_neg (some_ne_none did).symm]
      by_cases hdid : did = toDidHash
      · rw [if_pos (congrArg ofString hdid), if_pos hdid, haccount, hdid]
      · rw [if_neg fun heq => hdid (ofString_injective heq), if_neg hdid, h.accounts]
    | some sender =>
      rw [hfjall.accounts_some sender hfromRecord, get?_insert, get?_insert, hrecipient, hbytes,
        ← hsender, hfromRecord]
      by_cases hfromDid : did = sender
      · rw [if_pos (congrArg ofString hfromDid), if_pos (congrArg some hfromDid.symm), haccount, hfromDid]
      · rw [if_neg fun heq => hfromDid (ofString_injective heq), if_neg fun heq => hfromDid (some.inj heq).symm]
        by_cases hdid : did = toDidHash
        · rw [if_pos (congrArg ofString hdid), if_pos hdid, haccount, hdid]
        · rw [if_neg fun heq => hdid (ofString_injective heq), if_neg hdid, h.accounts]
  · cases folder with
    | inbox =>
      have hinsert := (h.folders .inbox).insert hordinary.recipient hordinary.receiveId
        (record.inboxEntry (digest message))
      show SameFolders n (inboxOf _) (Fjall.FjallState.inbox _)
      rw [hmemory.inboxOf, hfjall.inbox]
      exact hinsert
    | outbox =>
      show SameFolders n (outboxOf _) (Fjall.FjallState.outbox _)
      cases hfromRecord : record.fromDidHash with
      | none =>
        rw [(hfjall.outbox_none hfromRecord).2]
        have hsame : (storeMessage digest nowMs message toDidHash fromHash expiresAt memory).2.outboxOf =
          memory.outboxOf := by
          funext d
          rw [outboxOf, (hmemory.outbox_none hfromRecord).2]
          rfl
        rw [hsame]
        exact h.folders .outbox
      | some sender =>
        obtain ⟨hlength, -, sid, hsid, hwords⟩ := hordinary.sent sender hfromRecord
        obtain ⟨sid', hsid', hmemoryOutbox⟩ := hmemory.outboxOf hfromRecord
        obtain ⟨sid'', hsid'', hfjallOutbox⟩ := hfjall.outbox_some sender hfromRecord
        cases hsid.symm.trans hsid'
        cases hsid.symm.trans hsid''
        rw [hmemoryOutbox, hfjallOutbox]
        exact (h.folders .outbox).insert hlength hwords (record.outboxEntry (digest message))
  · rw [hmemory.messages] at hr
    by_cases hid : id = digest message
    · rw [hid, update_self] at hr
      exact some.inj hr ▸ hordinary
    · rw [update_of_ne hid] at hr
      exact h.ordinary id r hr

end

/-! ## Deleting -/

theorem removeMessage_written (messageHash : String) {record : MessageRecord} (hordinary : record.Ordinary n)
    (did : String) :
    ((memory.removeMessage messageHash record).accounts did).map stored =
      ((memory.accounts did).map stored).map fun account =>
        if record.fromDidHash = some did then { account with
          sendQueueCount := account.sendQueueCount - 1
          sendQueueBytes := account.sendQueueBytes - record.bytes }
        else if did = record.toDidHash then { account with
          receiveQueueCount := account.receiveQueueCount - 1
          receiveQueueBytes := account.receiveQueueBytes - record.bytes }
        else account := by
  rw [removeMessage_accounts, Option.map_map]
  by_cases hfrom : record.fromDidHash = some did
  · obtain ⟨-, hne, sid, hsid, -⟩ := hordinary.sent did hfrom
    dsimp only
    rw [if_neg hne, if_pos ⟨hfrom, by rw [hsid]; rfl⟩, Option.map_map]
    refine congrArg (Option.map · (memory.accounts did)) (funext fun account => ?_)
    simp only [comp_apply, if_pos hfrom]
    rfl
  · have hnot : ¬(record.fromDidHash = some did ∧ record.sendId.isSome = true) := fun h => hfrom h.1
    dsimp only
    by_cases hto : did = record.toDidHash
    · rw [if_pos hto, if_neg hnot, Option.map_map]
      refine congrArg (Option.map · (memory.accounts did)) (funext fun account => ?_)
      simp only [comp_apply, if_neg hfrom, if_pos hto]
      rfl
    · rw [if_neg hto, if_neg hnot]
      refine congrArg (Option.map · (memory.accounts did)) (funext fun account => ?_)
      simp only [comp_apply, if_neg hfrom, if_neg hto]

theorem Fjall.removeMessage_accounts (messageHash : String) {record : MessageRecord} (hordinary : record.Ordinary n)
    (did : String) : (fjall.removeMessage messageHash record).accounts.get? (ofString did) =
      (fjall.accounts.get? (ofString did)).map fun account =>
        if record.fromDidHash = some did then { account with
          sendQueueCount := account.sendQueueCount - 1
          sendQueueBytes := account.sendQueueBytes - record.bytes }
        else if did = record.toDidHash then { account with
          receiveQueueCount := account.receiveQueueCount - 1
          receiveQueueBytes := account.receiveQueueBytes - record.bytes }
        else account := by
  unfold FjallState.removeMessage
  dsimp only [FjallState.bumpGlobal]
  cases hfrom : record.fromDidHash with
  | none =>
    dsimp only [bind_none]
    simp only [reduceCtorEq, if_false]
    cases hto : fjall.accounts.get? (ofString record.toDidHash) with
    | none =>
      by_cases hdid : did = record.toDidHash
      · rw [hdid, hto]
        rfl
      · simp [hdid]
    | some account =>
      rw [get?_insert]
      by_cases hdid : did = record.toDidHash
      · rw [if_pos (congrArg ofString hdid), hdid, hto]
        simp
      · rw [if_neg fun heq => hdid (ofString_injective heq)]
        simp [hdid]
  | some sender =>
    obtain ⟨-, hne, -⟩ := hordinary.sent sender hfrom
    have hkey : ∀ d d', ofString d = ofString d' ↔ d = d' := fun d d' => ofString_injective.eq_iff
    have hcases : did = sender ∨ did = record.toDidHash ∨ did ≠ sender ∧ did ≠ record.toDidHash := by tauto
    dsimp only [bind_some]
    cases hto : fjall.accounts.get? (ofString record.toDidHash) with
    | none =>
      cases hs : fjall.accounts.get? (ofString sender) with
      | none =>
        rcases hcases with rfl | rfl | ⟨hs', ht'⟩
        · simp [hs]
        · simp [hto]
        · simp [Ne.symm hs', ht']
      | some account =>
        rcases hcases with rfl | rfl | ⟨hs', ht'⟩
        · simp [hs, get?_insert]
        · simp [hto, get?_insert, hkey, Ne.symm hne]
        · simp [get?_insert, hkey, hs', Ne.symm hs', ht']
    | some received =>
      cases hs : fjall.accounts.get? (ofString sender) with
      | none =>
        rcases hcases with rfl | rfl | ⟨hs', ht'⟩
        · simp [hs, get?_insert, hkey, hne]
        · simp [hto, get?_insert, hne]
        · simp [get?_insert, hkey, Ne.symm hs', ht']
      | some account =>
        rcases hcases with rfl | rfl | ⟨hs', ht'⟩
        · simp [hs, get?_insert]
        · simp [hto, get?_insert, hkey, hne, Ne.symm hne]
        · simp [get?_insert, hkey, hs', Ne.symm hs', ht']

theorem Accords.remove (h : Accords n m memory fjall) {msgId : String} {record : MessageRecord}
    (hr : memory.messages msgId = some record) :
    Accords n m (memory.removeMessage msgId record) (fjall.removeMessage msgId record) := by
  have hordinary := h.ordinary msgId record hr
  refine ⟨?_, ?_, fun id => ?_, fun did => ?_, fun folder => ?_, fun id r hid => ?_⟩
  · rw [lastId_removeMessage]
    exact h.lastId
  · rw [lastId_removeMessage]
    exact h.bounded
  · rw [removeMessage_messages]
    show (erase fjall.messages (ofString msgId)).get? (ofString id) = _
    rw [get?_erase]
    by_cases hid : id = msgId
    · rw [if_pos (congrArg ofString hid), hid, update_self]
    · rw [if_neg fun heq => hid (ofString_injective heq), update_of_ne hid, h.messages]
  · rw [removeMessage_written msgId hordinary, Fjall.removeMessage_accounts msgId hordinary, h.accounts]
  · cases folder with
    | inbox =>
      show SameFolders n (inboxOf _) (erase fjall.inbox _)
      rw [inboxOf_removeMessage]
      exact (h.folders .inbox).erase hordinary.recipient hordinary.receiveId
    | outbox =>
      show SameFolders n (outboxOf _) (Fjall.FjallState.outbox _)
      cases hfrom : record.fromDidHash with
      | none =>
        have hsame : (fjall.removeMessage msgId record).outbox = fjall.outbox := by
          unfold Fjall.FjallState.removeMessage
          rw [hfrom]
          rfl
        rw [outboxOf_removeMessage_anonymous memory msgId record hfrom, hsame]
        exact h.folders .outbox
      | some sender =>
        obtain ⟨hlength, -, sid, hsid, hwords⟩ := hordinary.sent sender hfrom
        have hsame : (fjall.removeMessage msgId record).outbox =
          fjall.outbox.erase (Fjall.streamKey sender sid) := by
          unfold Fjall.FjallState.removeMessage
          rw [hfrom, hsid]
          rfl
        rw [outboxOf_removeMessage memory msgId record hfrom hsid, hsame]
        exact (h.folders .outbox).erase hlength hwords
  · rw [removeMessage_messages] at hid
    by_cases heq : id = msgId
    · rw [heq, update_self] at hid
      cases hid
    · rw [update_of_ne heq] at hid
      exact h.ordinary id r hid

theorem Accords.delete (h : Accords n m memory fjall) (messageHash : String) (authority : DeletionAuthority) :
    (deleteMessage messageHash authority memory).1.mapError MediatorError.unnamed =
        (Fjall.deleteMessage messageHash authority fjall).1.mapError MediatorError.unnamed ∧
      Accords n m (deleteMessage messageHash authority memory).2
        (Fjall.deleteMessage messageHash authority fjall).2 := by
  unfold deleteMessage Fjall.deleteMessage
  rw [h.messages]
  cases hr : memory.messages messageHash with
  | none => exact ⟨rfl, h⟩
  | some record =>
    by_cases hperm : deleteMessagePermitted authority record.toDidHash record.fromDidHash = true
    · simp only [hperm, Bool.not_true, Bool.false_eq_true, if_false]
      exact ⟨trivial, h.remove hr⟩
    · simp only [hperm, Bool.not_false, if_true]
      exact ⟨rfl, h⟩

/-! ## Purging -/

theorem Accords.purgeLoop (h : Accords n m memory fjall) (didHash : String) (ids : List String) :
    (Store.purgeLoop didHash ids memory).1 = (Fjall.purgeLoop didHash ids fjall).1 ∧
      Accords n m (Store.purgeLoop didHash ids memory).2 (Fjall.purgeLoop didHash ids fjall).2 := by
  induction ids generalizing memory fjall with
  | nil => exact ⟨rfl, h⟩
  | cons id ids ih =>
    obtain ⟨hreply, hafter⟩ := h.delete id (.owner didHash)
    obtain ⟨hcounts, hrest⟩ := ih hafter
    simp only [Store.purgeLoop, Fjall.purgeLoop]
    rw [h.messages]
    rcases hmemory : deleteMessage id (.owner didHash) memory with ⟨e | u, memory'⟩
    · rcases hfjall : Fjall.deleteMessage id (.owner didHash) fjall with ⟨e' | u', fjall'⟩
      · rw [hmemory, hfjall] at hcounts hrest
        exact ⟨hcounts, hrest⟩
      · rw [hmemory, hfjall] at hreply
        cases hreply
    · rcases hfjall : Fjall.deleteMessage id (.owner didHash) fjall with ⟨e' | u', fjall'⟩
      · rw [hmemory, hfjall] at hreply
        cases hreply
      · rw [hmemory, hfjall] at hcounts hrest
        simp only at hcounts hrest ⊢
        exact ⟨congrArg (fun counts => (counts.1 + 1, counts.2 + _)) hcounts, hrest⟩

theorem folderStream_msgIds (didHash : String) (folder : Folder) :
    ((folderStream folder memory didHash).map fun s => s.values.map StreamEntry.msgId).getD [] =
      (memory.foldersOf folder didHash).values.map StreamEntry.msgId := by
  cases folder with
  | inbox =>
    show ((memory.inbox didHash).map _).getD [] = ((memory.inbox didHash).getD .empty).values.map _
    cases memory.inbox didHash <;> rfl
  | outbox =>
    show ((memory.outbox didHash).map _).getD [] = ((memory.outbox didHash).getD .empty).values.map _
    cases memory.outbox didHash <;> rfl

section

variable (h : Accords n m memory fjall)
include h

theorem Accords.dropFolder (hdid : (ofString didHash).length = n) (folder : Folder) :
    Accords n m (deleteFolderStream didHash folder memory).2 (Fjall.deleteFolderStream didHash folder fjall).2 := by
  have hdropped := (h.folders folder).drop hdid
  cases folder with
  | inbox =>
    refine ⟨h.lastId, h.bounded, h.messages, h.accounts, fun folder => ?_, h.ordinary⟩
    cases folder with
    | outbox => exact h.folders .outbox
    | inbox =>
      have hinbox : (deleteFolderStream didHash .inbox memory).2.inboxOf =
        update memory.inboxOf didHash .empty := by
        funext k
        by_cases hk : k = didHash
        · rw [hk, update_self]
          show (update memory.inbox didHash none didHash).getD .empty = _
          rw [update_self]
          rfl
        · rw [update_of_ne hk]
          show (update memory.inbox didHash none k).getD .empty = _
          rw [update_of_ne hk]
          rfl
      show SameFolders n (inboxOf _) _
      rw [hinbox]
      exact hdropped
  | outbox =>
    refine ⟨h.lastId, h.bounded, h.messages, h.accounts, fun folder => ?_, h.ordinary⟩
    cases folder with
    | inbox => exact h.folders .inbox
    | outbox =>
      have houtbox : (deleteFolderStream didHash .outbox memory).2.outboxOf =
          update memory.outboxOf didHash .empty := by
        funext k
        by_cases hk : k = didHash
        · rw [hk, update_self]
          show (update memory.outbox didHash none didHash).getD .empty = _
          rw [update_self]
          rfl
        · rw [update_of_ne hk]
          show (update memory.outbox didHash none k).getD .empty = _
          rw [update_of_ne hk]
          rfl
      show SameFolders n (outboxOf _) _
      rw [houtbox]
      exact hdropped

theorem Accords.purge (hdid : (ofString didHash).length = n) (folder : Folder) :
    (purgeFolder didHash folder memory).1 = (Fjall.purgeFolder didHash folder fjall).1 ∧
    Accords n m (purgeFolder didHash folder memory).2 (Fjall.purgeFolder didHash folder fjall).2 := by
  have hids : (fjall.ownEntries folder didHash).map (fun e => e.2.msgId) =
      (memory.foldersOf folder didHash).values.map StreamEntry.msgId := (h.folders folder).msgIds hdid
  unfold purgeFolder Fjall.purgeFolder
  rw [folderStream_msgIds, hids]
  obtain ⟨hcounts, hafter⟩ := h.purgeLoop didHash ((memory.foldersOf folder didHash).values.map StreamEntry.msgId)
  refine ⟨congrArg Except.ok hcounts, ?_⟩
  exact hafter.dropFolder hdid folder

/-! ## One call -/

theorem Accords.mono {m' : ℕ} (hm : m ≤ m') : Accords n m' memory fjall :=
  ⟨h.lastId, h.bounded.mono (Nat.mul_le_mul_left 2 hm), h.messages, h.accounts, h.folders, h.ordinary⟩

theorem Accords.addAccount (didHash : String) (acls : MediatorACLSet) (queueLimit : Option ℕ) :
    Accords n m (accountAdd didHash acls queueLimit memory).2 (Fjall.accountAdd didHash acls queueLimit fjall).2 := by
  refine ⟨h.lastId, h.bounded, h.messages, fun did => ?_, fun folder => ?_, h.ordinary⟩
  · rw [accountAdd_accounts]
    show (insert fjall.accounts _ _).get? _ = _
    rw [get?_insert]
    by_cases hdid : did = didHash
    · rw [if_pos (congrArg ofString hdid), if_pos hdid]
      rfl
    · rw [if_neg fun heq => hdid (ofString_injective heq), if_neg hdid, h.accounts]
  · cases folder with
    | inbox => exact h.folders .inbox
    | outbox => exact h.folders .outbox

end

/-- A call between two DIDs returns the same in both stores, and they still correspond after it. -/
theorem Accords.step {digest : String → String} {op : MessageOp} (h : Accords n m memory fjall)
    (hop : op.WellFormed n) (hother : op.ToAnother) (hm : 2 * (m + 1) < 2 ^ 64) :
    (memory.message digest op).1.mapError MediatorError.unnamed = (fjall.message digest op).1.mapError
    MediatorError.unnamed ∧ Accords n (m + 1) (memory.message digest op).2 (fjall.message digest op).2 := by
  cases op with
  | accountAdd didHash acls queueLimit =>
    exact ⟨rfl, (h.addAccount didHash acls queueLimit).mono (Nat.le_succ m)⟩
  | storeMessage nowMs message toDidHash fromHash expiresAt =>
    exact ⟨rfl, h.store hm hop.1 hop.2.1 hop.2.2 hother⟩
  | deleteMessage messageHash authority =>
    obtain ⟨hreply, hafter⟩ := h.delete messageHash authority
    refine ⟨?_, hafter.mono (Nat.le_succ m)⟩
    show (Except.map _ (Store.deleteMessage messageHash authority memory).1).mapError _ =
      (Except.map _ (Fjall.deleteMessage messageHash authority fjall).1).mapError _
    rcases hmemory : (Store.deleteMessage messageHash authority memory).1 with e | u
    · rcases hfjall : (Fjall.deleteMessage messageHash authority fjall).1 with e' | u'
      · rw [hmemory, hfjall] at hreply
        exact congrArg Except.error (Except.error.inj hreply)
      · rw [hmemory, hfjall] at hreply
        cases hreply
    · rcases hfjall : (Fjall.deleteMessage messageHash authority fjall).1 with e' | u'
      · rw [hmemory, hfjall] at hreply
        cases hreply
      · rfl
  | purgeFolder didHash folder =>
    obtain ⟨hreply, hafter⟩ := h.purge hop folder
    refine ⟨?_, hafter.mono (Nat.le_succ m)⟩
    show ((Store.purgeFolder didHash folder memory).1.map
      fun counts => MessageReply.purged counts.1 counts.2).mapError _ =
      ((Fjall.purgeFolder didHash folder fjall).1.map fun counts => MessageReply.purged counts.1 counts.2).mapError _
    rw [hreply]

/-- Over a run of messages to another DID the stores answer alike. -/
theorem Accords.run {digest : String → String} {ops : List MessageOp} (h : Accords n m memory fjall)
    (hops : ∀ op ∈ ops, op.WellFormed n) (hother : ∀ op ∈ ops, op.ToAnother)
    (hlength : 2 * (m + ops.length) < 2 ^ 64) : SameThroughout digest n ops memory fjall := by
  induction ops generalizing m memory fjall with
  | nil => exact h.sameMessages
  | cons op ops ih =>
    rw [length_cons] at hlength
    obtain ⟨hreply, hafter⟩ := h.step (hops op mem_cons_self) (hother op mem_cons_self) (by omega)
    exact ⟨h.sameMessages, hreply, ih hafter (fun op hop => hops op (mem_cons_of_mem _ hop))
      (fun op hop => hother op (mem_cons_of_mem _ hop)) (by omega)⟩

end

theorem accords_default (n : ℕ) : Accords n 0 default default := by
  refine ⟨rfl, ⟨by decide, Nat.le_refl 0⟩, fun _ => rfl, fun _ => rfl, fun folder => ?_, fun _ _ h => by cases h⟩
  have hempty : SameFolders n (fun _ => .empty) .empty :=
    ⟨by simp [empty], by simp [empty], fun _ _ _ _ => rfl⟩
  cases folder <;> exact hempty

/-- **Both stores** keep the same accounts, folders and messages throughout a run in which nobody writes to itself. -/
theorem messages_agree {digest : String → String} {n : ℕ} {ops : List MessageOp} (hops : ∀ op ∈ ops, op.WellFormed n)
    (hother : ∀ op ∈ ops, op.ToAnother) (hlength : 2 * ops.length < 2 ^ 64) :
    SameThroughout digest n ops default default :=
  (accords_default n).run hops hother (by rwa [Nat.zero_add])

/-- Alice writes to Bob, who purges his inbox. -/
theorem messages_agree_hello :
    SameThroughout id 3 [.storeMessage 7 "hello" "bob" (some "ann") 0,
      .purgeFolder "bob" .inbox] default default := by
  refine messages_agree ?_ ?_ (by decide)
  · rintro op hop
    rcases mem_cons.1 hop with rfl | hop
    · refine ⟨by decide, by decide +kernel, ?_⟩
      rintro sender hsender
      obtain rfl : "ann" = sender :=
        some.inj (hsender.symm.trans (by decide +kernel) : some sender = some "ann").symm
      decide +kernel
    · obtain rfl := mem_singleton.1 hop
      show (ofString "bob").length = 3
      decide +kernel
  · rintro op hop
    rcases mem_cons.1 hop with rfl | hop
    · show senderOf (some "ann") ≠ some "bob"
      decide +kernel
    · obtain rfl := mem_singleton.1 hop
      exact trivial

/-- Ann writes to herself: one store counts a message that she has received, the other does not. -/
theorem message_to_self :
    ((message id (.storeMessage 7 "hello" "ann" (some "ann") 0) default).2.accounts "ann").map
        queues = some ((1, 5), (1, 5)) ∧
      ((Fjall.FjallState.message id (.storeMessage 7 "hello" "ann" (some "ann") 0) default).2.accounts.get?
        (ofString "ann")).map Fjall.StoredAccount.queues = some ((0, 0), (1, 5)) ∧
      (MessageOp.storeMessage 7 "hello" "ann" (some "ann") 0).WellFormed 3 ∧
      ¬SameThroughout id 3 [.storeMessage 7 "hello" "ann" (some "ann") 0] default default := by
  have hmemory : ((message id (.storeMessage 7 "hello" "ann" (some "ann") 0) default).2.accounts
    "ann").map
      queues = some ((1, 5), (1, 5)) := by decide +kernel
  have hfjall : ((Fjall.FjallState.message id (.storeMessage 7 "hello" "ann" (some "ann") 0) default).2.accounts.get?
      (ofString "ann")).map Fjall.StoredAccount.queues = some ((0, 0), (1, 5)) := by decide +kernel
  refine ⟨hmemory, hfjall, ⟨by decide, by decide +kernel, ?_⟩, fun h => ?_⟩
  · rintro sender hsender
    obtain rfl : "ann" = sender :=
      some.inj (hsender.symm.trans (by decide +kernel) : some sender = some "ann").symm
    decide +kernel
  · have hqueues := h.2.2.queues "ann"
    rw [hmemory, hfjall] at hqueues
    cases hqueues

end AffinidiTdk.Store

