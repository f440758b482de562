/-
Stream ids and the forward queue of the embedded store over restarts. What is queued and how far a group has read
is on disk; the last id given out is not, so after a restart the first id is as late as the clock says.
-/
import AffinidiTdk.Store.FjallSweep
import AffinidiTdk.Store.MessageAgreement

namespace AffinidiTdk.Store.Fjall

open Function List
open Acl Bytes

/-! ## Storing with a clock -/

/-- The batch of `store_message`, with the ids that were given out for it. -/
def writeMessage (digest : String → String) (timestampMs : ℕ) (message toDidHash sender : String) (expiresAt : ℕ)
    (receiveId : StreamId) (sendId : Option StreamId) (st : FjallState) : FjallState :=
  let msgId := digest message
  let bytes := message.utf8ByteSize
  let stored : MessageRecord :=
    { body := message
      bytes
      toDidHash
      fromDidHash := if sender = "ANONYMOUS" then none else some sender
      timestampMs
      receiveId
      sendId
      expiresAt }
  let recvAccount := ((st.accounts.get? (ofString toDidHash)).getD default).received bytes
  let senderAccount := if sender ≠ "ANONYMOUS" then
      some (((st.accounts.get? (ofString sender)).getD default).sent bytes)
    else none
  let accounts := st.accounts.insert (ofString toDidHash) recvAccount
  let st := { st with
    messages := st.messages.insert (ofString msgId) stored
    inbox := st.inbox.insert (streamKey toDidHash receiveId) ⟨msgId, bytes, sender⟩
    outbox := match sendId with
      | some sid => st.outbox.insert (streamKey sender sid) ⟨msgId, bytes, toDidHash⟩
      | none => st.outbox
    accounts := match senderAccount with
      | some account => accounts.insert (ofString sender) account
      | none => accounts
    expiry := if expiresAt > 0 then st.expiry.insert (expiryKey expiresAt msgId) () else st.expiry }
  (st.bumpGlobal "RECEIVED_BYTES" bytes).bumpGlobal "RECEIVED_COUNT" 1

/-- The readings of the clock in `store_message`: for either id and for the record. -/
structure Clock where
  receive : ℕ
  send : ℕ
  record : ℕ

/-- `store_message`, with every reading of the clock its own. -/
def storeMessageAt (digest : String → String) (clock : Clock) (message toDidHash : String) (fromHash : Option String)
    (expiresAt : ℕ) (st : FjallState) : List StreamId × FjallState :=
  let sender := (fromHash.filter fun s => !s.isEmpty).getD "ANONYMOUS"
  let (receiveId, st) := st.allocStreamId clock.receive
  if sender ≠ "ANONYMOUS" then
    let (sendId, st) := st.allocStreamId clock.send
    ([sendId, receiveId], writeMessage digest clock.record message toDidHash sender expiresAt receiveId
      (some sendId) st)
  else ([receiveId], writeMessage digest clock.record message toDidHash sender expiresAt receiveId none st)

/-! ## The forward queue -/

/-- The store with its forward queue: the entries, the claims, and for each group the last id delivered. -/
structure ForwardStore where
  store : FjallState
  forwardQueue : Partition ForwardQueueEntry
  forwardPending : Partition PendingClaim
  groupCursors : String → Option (List ℕ)

def pendingKey (group : String) (sid : StreamId) : List ℕ := ofString group ++ 0 :: encodeStreamId sid

namespace ForwardStore

/-- Queues the entry; when the queue is full the oldest entries are dropped with the same batch. -/
def forwardQueueEnqueue (nowMs : ℕ) (entry : ForwardQueueEntry) (maxLen : ℕ) (s : ForwardStore) :
    StreamId × ForwardStore :=
  let (id, store) := s.store.allocStreamId nowMs
  let current := s.forwardQueue.length
  let toRemove := if maxLen > 0 ∧ current ≥ maxLen then s.forwardQueue.keys.take (current - maxLen + 1) else []
  (id, { s with
    store
    forwardQueue := toRemove.foldl (fun queue key => queue.erase key)
      (s.forwardQueue.insert (encodeStreamId id) entry) })

def readGroupCursor (s : ForwardStore) (group : String) : Option StreamId :=
  (s.groupCursors group).bind decodeStreamId

/-- The entries past what the group was given last. -/
def past (s : ForwardStore) (group : String) : List (List ℕ × ForwardQueueEntry) :=
  Paging.past s.forwardQueue.entries ((s.readGroupCursor group).map encodeStreamId)

/-- One attempt of `forward_queue_read`; a call that waits makes another one later. -/
def forwardQueueRead (nowMs : ℕ) (group consumer : String) (count : ℕ) (s : ForwardStore) :
    List (StreamId × ForwardQueueEntry) × ForwardStore :=
  let last := s.readGroupCursor group
  let entries := ((s.past group).take count).filterMap fun e => (decodeStreamId e.1).map fun sid => (sid, e.2)
  let newLast := (entries.getLast?.map Prod.fst).or last
  (entries, { s with
    forwardPending := entries.foldl
      (fun p e => p.insert (pendingKey group e.1) ⟨consumer, nowMs, 1⟩) s.forwardPending
    groupCursors := match newLast with
      | some sid => Function.update s.groupCursors group (some (encodeStreamId sid))
      | none => s.groupCursors })

/-- The process ends and the store is opened again. -/
def restart (s : ForwardStore) : ForwardStore := { s with store := s.store.reopen }

end ForwardStore

/-! ## Runs -/

/-- The calls on the forward queue, those that store a message, and a restart. -/
inductive ForwardOp
  | storeMessage (clock : Clock) (message toDidHash : String) (fromHash : Option String) (expiresAt : ℕ)
  | enqueue (nowMs : ℕ) (entry : ForwardQueueEntry) (maxLen : ℕ)
  | read (nowMs : ℕ) (group consumer : String) (count : ℕ)
  | restart

/-- The clock is read as a `u64`. -/
def ForwardOp.Clocked : ForwardOp → Prop
  | .storeMessage clock _ _ _ _ => clock.receive < 2 ^ 64 ∧ clock.send < 2 ^ 64
  | .enqueue nowMs _ _ => nowMs < 2 ^ 64
  | .read _ _ _ _ | .restart => True

/-- A run so far: the store, the ids given out (the latest first), those given to queued entries, and what each
group was given. -/
structure ForwardRun where
  store : ForwardStore
  used : List StreamId
  queued : List StreamId
  returned : List (String × StreamId)

namespace ForwardRun

def start : ForwardRun := ⟨⟨default, .empty, .empty, fun _ => none⟩, [], [], []⟩

def step (digest : String → String) (r : ForwardRun) : ForwardOp → ForwardRun
  | .storeMessage clock message toDidHash fromHash expiresAt =>
    let (ids, store) := storeMessageAt digest clock message toDidHash fromHash expiresAt r.store.store
    { r with store := { r.store with store }, used := ids ++ r.used }
  | .enqueue nowMs entry maxLen =>
    let (id, store) := r.store.forwardQueueEnqueue nowMs entry maxLen
    { r with store, used := id :: r.used, queued := id :: r.queued }
  | .read nowMs group consumer count =>
    let (entries, store) := r.store.forwardQueueRead nowMs group consumer count
    { r with store, returned := (entries.map fun e => (group, e.1)) ++ r.returned }
  | .restart => { r with store := r.store.restart }

def run (digest : String → String) (ops : List ForwardOp) : ForwardRun := ops.foldl (step digest) start

end ForwardRun

/-! ## What is asked for -/

/-- One call after the other reads for a group: the consumer, the clock and how many at most. -/
structure ReadCall where
  nowMs : ℕ
  consumer : String
  count : ℕ

/-- The ids that the first `k` calls return. -/
def readOn (group : String) : (ℕ → ReadCall) → ℕ → ForwardStore → List StreamId
  | _, 0, _ => []
  | calls, k + 1, s =>
    let (entries, s) := s.forwardQueueRead (calls 0).nowMs group (calls 0).consumer (calls 0).count
    entries.map Prod.fst ++ readOn group (fun i => calls (i + 1)) k s

/-- Whoever goes on reading for the group is given the entry. -/
def Due (s : ForwardStore) (group : String) (id : StreamId) : Prop :=
  ∀ calls : ℕ → ReadCall, (∀ i, 0 < (calls i).count) → ∃ k, id ∈ readOn group calls k s

/-- Every id is later than the ids before it, and every group was given every queued entry, or it is due. -/
structure Sound (r : ForwardRun) : Prop where
  increasing : r.used.Pairwise (· > ·)
  delivered : ∀ id ∈ r.queued, ∀ group, (group, id) ∈ r.returned ∨ Due r.store group id

/-- The first id of a process is given out at a later time than any id so far, as the clock says. -/
def ClockAhead (r : ForwardRun) (nowMs : ℕ) : Prop :=
  r.store.store.lastId = toLex (0, 0) → ∀ id ∈ r.used, (ofLex id).1 < nowMs

/-- The clock has not gone back over a restart, and there is room for an entry that is queued. -/
def Allows (r : ForwardRun) : ForwardOp → Prop
  | .storeMessage clock _ _ _ _ => ClockAhead r clock.receive
  | .enqueue nowMs _ maxLen => ClockAhead r nowMs ∧ (maxLen = 0 ∨ r.store.forwardQueue.length < maxLen)
  | .read _ _ _ _ | .restart => True

/-! ## Ids -/

variable {m : ℕ} {st : FjallState} {used : List StreamId} {nowMs : ℕ}

/-- The ids given out so far, and the last one of this process if there is one. -/
structure Given (m : ℕ) (st : FjallState) (used : List StreamId) : Prop where
  increasing : used.Pairwise (· > ·)
  bounded : ∀ id ∈ used, Bounded m id
  lastBounded : Bounded m st.lastId
  positive : ∀ id ∈ used, toLex (0, 0) < id
  last : st.lastId = toLex (0, 0) ∨ ∀ id ∈ used, id ≤ st.lastId

theorem allocStreamId_first (h : st.lastId = toLex (0, 0)) (nowMs : ℕ) :
    (st.allocStreamId nowMs).1 = if 0 < nowMs then toLex (nowMs, 0) else toLex (0, 1) := by
  have hms : st.lastStreamMs = 0 := congrArg (fun sid => (ofLex sid).1) h
  have hseq : st.nextStreamSeq = 0 := congrArg (fun sid => (ofLex sid).2) h
  unfold FjallState.allocStreamId
  rw [hms, hseq]
  by_cases hnow : 0 < nowMs
  · rw [if_pos hnow, if_pos hnow]
  · rw [if_neg hnow, if_neg hnow]

theorem Given.alloc_gt_iff (h : Given m st used) (nowMs : ℕ) :
    (∀ id ∈ used, id < (st.allocStreamId nowMs).1) ↔
      (st.lastId = toLex (0, 0) → ∀ id ∈ used, (ofLex id).1 < nowMs) := by
  by_cases hfirst : st.lastId = toLex (0, 0)
  · rw [allocStreamId_first hfirst]
    simp only [hfirst, forall_const]
    refine forall₂_congr fun id hid => ?_
    have hpositive := Prod.Lex.lt_iff.1 (h.positive id hid)
    simp only [ofLex_toLex] at hpositive
    split_ifs with hnow
    · rw [Prod.Lex.lt_iff]
      simp only [ofLex_toLex]
      omega
    · rw [Prod.Lex.lt_iff]
      simp only [ofLex_toLex]
      omega
  · refine iff_of_true (fun id hid => ?_) fun heq => absurd heq hfirst
    rcases h.last with heq | hle
    · exact absurd heq hfirst
    · exact (hle id hid).trans_lt (allocStreamId_gt st nowMs).1

theorem zero_le_id (id : StreamId) : toLex (0, 0) ≤ id := zero_le_words

section

variable (h : Given m st used)
include h

theorem Given.alloc (hnow : nowMs < 2 ^ 64)
    (hahead : st.lastId = toLex (0, 0) → ∀ id ∈ used, (ofLex id).1 < nowMs) : Given (m + 1)
    (st.allocStreamId nowMs).2 ((st.allocStreamId nowMs).1 :: used) := by
  have hgt := (h.alloc_gt_iff nowMs).2 hahead
  obtain ⟨hlater, hlast⟩ := allocStreamId_gt st nowMs
  have hbounded : Bounded (m + 1) (st.allocStreamId nowMs).1 := by
    obtain ⟨hms, hseq⟩ := h.lastBounded
    unfold FjallState.allocStreamId
    by_cases hlater : nowMs > st.lastStreamMs
    · rw [if_pos hlater]
      exact ⟨hnow, Nat.zero_le _⟩
    · rw [if_neg hlater]
      exact ⟨hms, Nat.succ_le_succ hseq⟩
  refine ⟨pairwise_cons.2 ⟨hgt, h.increasing⟩, fun id hid => ?_, ?_, fun id hid => ?_, .inr fun id hid => ?_⟩
  · rcases mem_cons.1 hid with rfl | hid
    · exact hbounded
    · exact (h.bounded id hid).mono (Nat.le_succ m)
  · rw [hlast]
    exact hbounded
  · rcases mem_cons.1 hid with rfl | hid
    · exact (zero_le_id _).trans_lt hlater
    · exact h.positive id hid
  · rw [hlast]
    rcases mem_cons.1 hid with rfl | hid
    · exact le_rfl
    · exact (hgt id hid).le

theorem Given.restart : Given m st.reopen used :=
  ⟨h.increasing, h.bounded, ⟨by show 0 < 2 ^ 64; decide, Nat.zero_le _⟩, h.positive, .inl rfl⟩

theorem Given.mono {m' : ℕ} (hm : m ≤ m') : Given m' st used :=
  ⟨h.increasing, fun id hid => (h.bounded id hid).mono hm, h.lastBounded.mono hm, h.positive, h.last⟩

theorem Given.congr {st' : FjallState} (hlast : st'.lastId = st.lastId) : Given m st' used :=
  ⟨h.increasing, h.bounded, hlast ▸ h.lastBounded, h.positive, hlast ▸ h.last⟩

theorem Given.storeMessageAt (digest : String → String) {clock : Clock} (hreceive : clock.receive < 2 ^ 64)
    (hsend : clock.send < 2 ^ 64) (hahead : st.lastId = toLex (0, 0) → ∀ id ∈ used, (ofLex id).1 < clock.receive)
    (message toDidHash : String) (fromHash : Option String) (expiresAt : ℕ) : Given (m + 2)
    (storeMessageAt digest clock message toDidHash fromHash expiresAt st).2
    ((storeMessageAt digest clock message toDidHash fromHash expiresAt st).1 ++ used) := by
  have hfirst := h.alloc hreceive hahead
  unfold Fjall.storeMessageAt
  by_cases hsender : (fromHash.filter fun s => !s.isEmpty).getD "ANONYMOUS" = "ANONYMOUS"
  · simp only [hsender, ne_eq, not_true, if_false]
    exact (hfirst.mono (Nat.le_succ _)).congr rfl
  · simp only [hsender, ne_eq, not_false_eq_true, if_true]
    -- the process has given out an id by now
    have hsecond := hfirst.alloc hsend fun heq => by
      rw [(allocStreamId_gt st clock.receive).2] at heq
      exact absurd heq (ne_of_gt (hfirst.positive _ mem_cons_self))
    exact hsecond.congr rfl

end

theorem storeMessageAt_ids (digest : String → String) (clock : Clock) (message toDidHash : String)
    (fromHash : Option String) (expiresAt : ℕ) (st : FjallState) :
    ∃ ids, (storeMessageAt digest clock message toDidHash fromHash expiresAt st).1 =
      ids ++ [(st.allocStreamId clock.receive).1] := by
  unfold storeMessageAt
  by_cases hsender : (fromHash.filter fun s => !s.isEmpty).getD "ANONYMOUS" = "ANONYMOUS"
  · simp only [hsender, ne_eq, not_true, if_false]
    exact ⟨[], rfl⟩
  · simp only [hsender, ne_eq, not_false_eq_true, if_true]
    exact ⟨[_], rfl⟩

/-! ## Reads -/

namespace ForwardStore

variable {s : ForwardStore} {group : String}

/-- The queue and the cursors are written in the code of the ids. -/
structure Encoded (s : ForwardStore) : Prop where
  keys : ∀ e ∈ s.forwardQueue.entries, ∃ id, Words id ∧ e.1 = encodeStreamId id
  cursors : ∀ group sid, s.readGroupCursor group = some sid → Words sid

theorem past_subset {e : List ℕ × ForwardQueueEntry} (he : e ∈ s.past group) : e ∈ s.forwardQueue.entries := by
  unfold past at he
  cases hcursor : (s.readGroupCursor group).map encodeStreamId with
  | none =>
    rw [hcursor] at he
    exact he
  | some cursor =>
    rw [hcursor] at he
    exact mem_of_mem_filter he

theorem mem_past_iff {e : List ℕ × ForwardQueueEntry} (he : e ∈ s.forwardQueue.entries) {last : StreamId}
    (hcursor : s.readGroupCursor group = some last) : e ∈ s.past group ↔ encodeStreamId last < e.1 := by
  unfold past
  rw [hcursor]
  simp [Paging.past, he]

theorem read_entries (h : Encoded s) (entries : List (List ℕ × ForwardQueueEntry))
    (hentries : ∀ e ∈ entries, e ∈ s.forwardQueue.entries) :
    ((entries.filterMap fun e => (decodeStreamId e.1).map fun sid => (sid, e.2)).map fun e => encodeStreamId e.1) =
        entries.map Prod.fst ∧
      ∀ e ∈ entries.filterMap fun e => (decodeStreamId e.1).map fun sid => (sid, e.2), Words e.1 := by
  induction entries with
  | nil => exact ⟨rfl, by simp⟩
  | cons e entries ih =>
    obtain ⟨id, hwords, hkey⟩ := h.keys e (hentries e mem_cons_self)
    obtain ⟨hkeys, hall⟩ := ih fun e he => hentries e (mem_cons_of_mem _ he)
    have hdecode : (decodeStreamId e.1).map (fun sid => (sid, e.2)) = some (id, e.2) := by
      rw [hkey, decode_encodeStreamId hwords]
      rfl
    rw [filterMap_cons, hdecode]
    refine ⟨?_, ?_⟩
    · rw [map_cons, map_cons, hkeys, hkey]
    · rintro x hx
      rcases mem_cons.1 hx with rfl | hx
      · exact hwords
      · exact hall x hx

/-- What a read does: it returns the first entries past the cursor, and leaves the rest past the new one. -/
structure Reads (s s' : ForwardStore) (group : String) (count : ℕ) (entries : List (StreamId × ForwardQueueEntry)) :
    Prop where
  returned : (entries.map fun e => encodeStreamId e.1) = ((s.past group).take count).map Prod.fst
  words : ∀ e ∈ entries, Words e.1
  queue : s'.forwardQueue = s.forwardQueue
  store : s'.store = s.store
  rest : s'.past group = (s.past group).drop count
  cursor : (s'.readGroupCursor group = s.readGroupCursor group ∧ ∀ bytes, s'.groupCursors group = some bytes →
      s.groupCursors group = some bytes ∨ ∃ sid, s.readGroupCursor group = some sid ∧ bytes = encodeStreamId sid) ∨
    ∃ e ∈ entries, s'.groupCursors group = some (encodeStreamId e.1)
  others : ∀ g, g ≠ group → s'.groupCursors g = s.groupCursors g

theorem readGroupCursor_of_cursor {sid : StreamId} (hwords : Words sid)
    (h : s.groupCursors group = some (encodeStreamId sid)) : s.readGroupCursor group = some sid := by
  rw [readGroupCursor, h, Option.bind_some, decode_encodeStreamId hwords]

theorem forwardQueueRead_reads (h : Encoded s) (nowMs : ℕ) (group consumer : String) (count : ℕ) :
    Reads s (s.forwardQueueRead nowMs group consumer count).2 group count
      (s.forwardQueueRead nowMs group consumer count).1 := by
  obtain ⟨hreturned, hwords⟩ :=
    read_entries h ((s.past group).take count) fun e he => past_subset (mem_of_mem_take he)
  unfold forwardQueueRead
  dsimp only
  generalize (((s.past group).take count).filterMap fun e => (decodeStreamId e.1).map fun sid => (sid, e.2)) =
    entries
    at hreturned hwords ⊢
  rcases eq_nil_or_concat entries with rfl | ⟨front, last, rfl⟩
  · -- nothing is past the cursor, or nothing was asked for
    have htake : (s.past group).take count = [] := by
      rw [map_nil, eq_comm, map_eq_nil_iff] at hreturned
      exact hreturned
    have hrest : s.past group = (s.past group).drop count := by
      have happend := take_append_drop count (s.past group)
      rwa [htake, nil_append, eq_comm] at happend
    rw [getLast?_nil, Option.map_none, Option.none_or]
    cases hcursor : s.readGroupCursor group with
    | none => exact ⟨hreturned, hwords, rfl, rfl, hrest, .inl ⟨rfl, fun _ => .inl⟩, fun _ _ => rfl⟩
    | some sid =>
      have hsame : readGroupCursor
          { s with groupCursors := update s.groupCursors group (some (encodeStreamId sid)) } group =
          s.readGroupCursor group := by
        rw [hcursor]
        exact readGroupCursor_of_cursor (h.cursors group sid hcursor) (update_self ..)
      refine ⟨hreturned, hwords, rfl, rfl, ?_, .inl ⟨hsame, fun bytes hbytes => .inr ⟨sid, hcursor, ?_⟩⟩,
        fun g hg => update_of_ne hg ..⟩
      · rw [← hrest]
        unfold past
        exact congrArg (fun cursor : Option StreamId =>
          Paging.past s.forwardQueue.entries (cursor.map encodeStreamId)) hsame
      · have hset := update_self group (some (encodeStreamId sid)) s.groupCursors
        exact (Option.some.inj (hset.symm.trans hbytes)).symm
  · rw [concat_eq_append] at hreturned hwords ⊢
    have hlast : ((front ++ [last]).getLast?.map Prod.fst).or (s.readGroupCursor group) = some last.1 := by
      rw [getLast?_concat]
      rfl
    have hmem : last ∈ front ++ [last] := by simp
    rw [hlast]
    refine ⟨hreturned, hwords, rfl, rfl, ?_, .inr ⟨last, hmem, update_self ..⟩, fun g hg => update_of_ne hg ..⟩
    -- the page ends with the entry of that id
    · obtain ⟨front', x, htake, hx⟩ : ∃ front' x, (s.past group).take count = front' ++ [x] ∧ x.1 =
        encodeStreamId last.1 := by
        rcases eq_nil_or_concat ((s.past group).take count) with hnil | ⟨front', x, hconcat⟩
        · rw [hnil] at hreturned
          simp at hreturned
        · rw [concat_eq_append] at hconcat
          refine ⟨front', x, hconcat, ?_⟩
          rw [hconcat] at hreturned
          have hends := congrArg getLast? hreturned
          simpa using hends.symm
      have hsplit : s.past group = front' ++ x :: (s.past group).drop count := by
        calc s.past group = (s.past group).take count ++ (s.past group).drop count := (take_append_drop ..).symm
          _ = front' ++ x :: (s.past group).drop count := by rw [htake, append_assoc, singleton_append]
      have hcursor : readGroupCursor
          { s with groupCursors := update s.groupCursors group (some (encodeStreamId last.1)) } group =
          some last.1 :=
        readGroupCursor_of_cursor (hwords last hmem) (update_self ..)
      refine Eq.trans ?_ (Paging.past_of_append s.forwardQueue.sorted hsplit)
      rw [hx]
      exact congrArg (fun cursor : Option StreamId =>
        Paging.past s.forwardQueue.entries (cursor.map encodeStreamId)) hcursor

theorem Reads.encoded {s' : ForwardStore} {count : ℕ} {entries : List (StreamId × ForwardQueueEntry)}
    (hreads : Reads s s' group count entries) (h : Encoded s) : Encoded s' := by
  refine ⟨fun e he => h.keys e (hreads.queue ▸ he), fun g sid hsid => ?_⟩
  by_cases hg : g = group
  · subst hg
    rcases hreads.cursor with ⟨hsame, -⟩ | ⟨e, he, hset⟩
    · exact h.cursors g sid (hsame ▸ hsid)
    · rw [readGroupCursor_of_cursor (hreads.words e he) hset] at hsid
      exact Option.some.inj hsid ▸ hreads.words e he
  · rw [readGroupCursor, hreads.others g hg] at hsid
    exact h.cursors g sid hsid

theorem due_of_past (h : Encoded s) {id : StreamId} (hid : Words id)
    (hpast : ∃ e ∈ s.past group, e.1 = encodeStreamId id) : Due s group id := by
  induction hlength : (s.past group).length using Nat.strongRecOn generalizing s with
  | _ length ih =>
    intro calls hcalls
    have hreads := forwardQueueRead_reads h (calls 0).nowMs group (calls 0).consumer (calls 0).count
    obtain ⟨e, he, hkey⟩ := hpast
    rw [← take_append_drop (calls 0).count (s.past group), mem_append] at he
    rcases he with htake | hdrop
    · -- this read returns it
      have hmem : encodeStreamId id ∈
        (s.forwardQueueRead (calls 0).nowMs group (calls 0).consumer (calls 0).count).1.map
          fun e => encodeStreamId e.1 := by
        rw [hreads.returned, ← hkey]
        exact mem_map_of_mem htake
      obtain ⟨x, hx, hxkey⟩ := mem_map.1 hmem
      have hxid : x.1 = id := by
        have hdecode := congrArg decodeStreamId hxkey
        rwa [decode_encodeStreamId (hreads.words x hx), decode_encodeStreamId hid, Option.some.injEq] at hdecode
      refine ⟨1, mem_append_left _ ?_⟩
      exact hxid ▸ mem_map_of_mem hx
    · have hshorter : ((s.forwardQueueRead (calls 0).nowMs group (calls 0).consumer (calls 0).count).2.past
        group).length <
          length := by
        have hpos := hcalls 0
        have hne := length_pos_of_mem hdrop
        rw [length_drop] at hne
        rw [hreads.rest, length_drop]
        omega
      obtain ⟨k, hk⟩ := ih _ hshorter (hreads.encoded h) ⟨e, hreads.rest ▸ hdrop, hkey⟩ rfl (fun i => calls (i + 1))
        fun i => hcalls (i + 1)
      exact ⟨k + 1, mem_append_right _ hk⟩

theorem mem_keys_of_readOn (h : Encoded s) {calls : ℕ → ReadCall} {k : ℕ} {id : StreamId}
    (hid : id ∈ readOn group calls k s) : encodeStreamId id ∈ s.forwardQueue.keys := by
  induction k generalizing s calls with
  | zero => cases hid
  | succ k ih =>
    have hreads := forwardQueueRead_reads h (calls 0).nowMs group (calls 0).consumer (calls 0).count
    rcases mem_append.1 hid with hnow | hlater
    · obtain ⟨x, hx, rfl⟩ := mem_map.1 hnow
      have hkey : encodeStreamId x.1 ∈ ((s.past group).take (calls 0).count).map Prod.fst := by
        rw [← hreads.returned]
        exact mem_map_of_mem hx
      obtain ⟨e, he, hekey⟩ := mem_map.1 hkey
      rw [← hekey]
      exact mem_map_of_mem (past_subset (mem_of_mem_take he))
    · have hkey := ih (hreads.encoded h) hlater
      rwa [hreads.queue] at hkey

theorem readOn_of_past_nil (h : Encoded s) (hpast : s.past group = []) (calls : ℕ → ReadCall) (k : ℕ) :
    readOn group calls k s = [] := by
  induction k generalizing s calls with
  | zero => rfl
  | succ k ih =>
    have hreads := forwardQueueRead_reads h (calls 0).nowMs group (calls 0).consumer (calls 0).count
    have hnow : (s.forwardQueueRead (calls 0).nowMs group (calls 0).consumer (calls 0).count).1 = [] := by
      have hreturned := hreads.returned
      rw [hpast, take_nil, map_nil, map_eq_nil_iff] at hreturned
      exact hreturned
    have hrest : (s.forwardQueueRead (calls 0).nowMs group (calls 0).consumer (calls 0).count).2.past group =
      [] := by
      rw [hreads.rest, hpast, drop_nil]
    show (s.forwardQueueRead (calls 0).nowMs group (calls 0).consumer (calls 0).count).1.map Prod.fst ++
      readOn group (fun i => calls (i + 1)) k
        (s.forwardQueueRead (calls 0).nowMs group (calls 0).consumer (calls 0).count).2 = []
    rw [hnow, ih (hreads.encoded h) hrest]
    rfl

end ForwardStore

/-! ## The invariant of a run -/

/-- The ids are in order, the queue has all that was queued, and a group was given what its cursor is past. -/
structure Inv (m : ℕ) (r : ForwardRun) : Prop where
  given : Given m r.store.store r.used
  queued : ∀ id ∈ r.queued, id ∈ r.used
  queue : ∀ key, key ∈ r.store.forwardQueue.keys ↔ ∃ id ∈ r.queued, key = encodeStreamId id
  cursor : ∀ group bytes, r.store.groupCursors group = some bytes → ∃ id ∈ r.queued, bytes = encodeStreamId id ∧
    ∀ id' ∈ r.queued, id' ≤ id → (group, id') ∈ r.returned

variable {r : ForwardRun}

open ForwardRun

theorem inv_start : Inv 0 .start := by
  refine ⟨⟨.nil, by simp [start], ⟨by decide, Nat.le_refl 0⟩, by simp [start], .inl rfl⟩,
    by simp [start], fun key => ?_, by simp [start]⟩
  simp [start, OrdMap.keys, OrdMap.empty]

theorem Inv.words (h : Inv m r) (hm : m < 2 ^ 64) {id : StreamId} (hid : id ∈ r.queued) : Words id :=
  words_of_bounded (h.given.bounded id (h.queued id hid)) hm

theorem Inv.encoded (h : Inv m r) (hm : m < 2 ^ 64) : r.store.Encoded := by
  refine ⟨fun e he => ?_, fun group sid hsid => ?_⟩
  · obtain ⟨id, hid, hkey⟩ := (h.queue e.1).1 (mem_map_of_mem he)
    exact ⟨id, h.words hm hid, hkey⟩
  · obtain ⟨bytes, hbytes, hdecode⟩ := Option.bind_eq_some_iff.1 hsid
    obtain ⟨id, hid, rfl, -⟩ := h.cursor group bytes hbytes
    rw [decode_encodeStreamId (h.words hm hid)] at hdecode
    exact Option.some.inj hdecode ▸ h.words hm hid

open ForwardStore

/-- The invariant gives at-least-once delivery in order. -/
theorem Inv.sound (h : Inv m r) (hm : m < 2 ^ 64) : Sound r := by
  refine ⟨h.given.increasing, fun id hid group => ?_⟩
  have hwords := h.words hm hid
  obtain ⟨e, he, hkey⟩ := mem_map.1 ((h.queue _).2 ⟨id, hid, rfl⟩)
  cases hcursor : r.store.groupCursors group with
  | none =>
    refine .inr (due_of_past (h.encoded hm) hwords ⟨e, ?_, hkey⟩)
    have hnone : r.store.readGroupCursor group = none := by rw [readGroupCursor, hcursor]; rfl
    rw [past, hnone]
    exact he
  | some bytes =>
    obtain ⟨last, hlast, rfl, hreturned⟩ := h.cursor group bytes hcursor
    rcases le_or_gt id last with hle | hgt
    · exact .inl (hreturned id hid hle)
    · refine .inr (due_of_past (h.encoded hm) hwords ⟨e, ?_, hkey⟩)
      rw [mem_past_iff he (readGroupCursor_of_cursor (h.words hm hlast) hcursor), hkey]
      exact encodeStreamId_lt hwords hgt

/-! ## Steps -/

theorem enqueue_eq_of_room {s : ForwardStore} {maxLen : ℕ} (hroom : maxLen = 0 ∨ s.forwardQueue.length < maxLen)
    (nowMs : ℕ) (entry : ForwardQueueEntry) :
    s.forwardQueueEnqueue nowMs entry maxLen = ((s.store.allocStreamId nowMs).1, { s with
      store := (s.store.allocStreamId nowMs).2
      forwardQueue := s.forwardQueue.insert (encodeStreamId (s.store.allocStreamId nowMs).1) entry }) := by
  unfold ForwardStore.forwardQueueEnqueue
  dsimp only
  rw [if_neg (by omega)]
  rfl

theorem Inv.read (h : Inv m r) (hm : m < 2 ^ 64) (digest : String → String) (nowMs : ℕ) (group consumer : String)
    (count : ℕ) : Inv m (r.step digest (.read nowMs group consumer count)) := by
  have hencoded := h.encoded hm
  have hreads := forwardQueueRead_reads hencoded nowMs group consumer count
  show Inv m { r with
    store := (r.store.forwardQueueRead nowMs group consumer count).2
    returned := ((r.store.forwardQueueRead nowMs group consumer count).1.map fun e => (group, e.1)) ++ r.returned }
  generalize (r.store.forwardQueueRead nowMs group consumer count).2 = after,
    (r.store.forwardQueueRead nowMs group consumer count).1 = entries at hreads ⊢
  refine ⟨hreads.store ▸ h.given, h.queued, hreads.queue ▸ h.queue, fun g bytes hbytes => ?_⟩
  by_cases hg : g = group
  · subst hg
    -- the last id, and why everything up to it was returned
    have hupto : ∀ last, after.readGroupCursor g = some last → Words last → ∀ id' ∈ r.queued, id' ≤ last →
        (g, id') ∈ (entries.map fun e => (g, e.1)) ++ r.returned := by
      intro last hlast hwordsLast id' hid' hle
      have hwords' := h.words hm hid'
      obtain ⟨e, he, hkey⟩ := mem_map.1 ((h.queue _).2 ⟨id', hid', rfl⟩)
      have hbehind : e ∉ (r.store.past g).drop count := by
        rw [← hreads.rest, mem_past_iff (hreads.queue ▸ he) hlast, hkey,
          encodeStreamId_lt_iff hwordsLast hwords', not_lt]
        exact hle
      by_cases hpast : e ∈ r.store.past g
      · rw [← take_append_drop count (r.store.past g), mem_append] at hpast
        have htaken := hpast.resolve_right hbehind
        have hmem : encodeStreamId id' ∈ entries.map fun e => encodeStreamId e.1 := by
          rw [hreads.returned, ← hkey]
          exact mem_map_of_mem htaken
        obtain ⟨x, hx, hxkey⟩ := mem_map.1 hmem
        have hdecode := congrArg decodeStreamId hxkey
        rw [decode_encodeStreamId (hreads.words x hx), decode_encodeStreamId hwords', Option.some.injEq] at hdecode
        exact mem_append_left _ (mem_map.2 ⟨x, hx, by rw [hdecode]⟩)
      · -- it is not past the cursor, so it was returned before
        cases hold : r.store.groupCursors g with
        | none =>
          have hnone : r.store.readGroupCursor g = none := by rw [readGroupCursor, hold]; rfl
          rw [past, hnone] at hpast
          exact absurd he hpast
        | some old =>
          obtain ⟨oldId, holdId, rfl, hreturned⟩ := h.cursor g old hold
          have hwordsOld := h.words hm holdId
          rw [mem_past_iff he (readGroupCursor_of_cursor hwordsOld hold), hkey,
            encodeStreamId_lt_iff hwordsOld hwords', not_lt] at hpast
          exact mem_append_right _ (hreturned id' hid' hpast)
    rcases hreads.cursor with ⟨-, hsame⟩ | ⟨e, he, hset⟩
    · -- the cursor is where it was
      obtain ⟨old, hold, hcode⟩ : ∃ old, r.store.groupCursors g = some old ∧ bytes = old := by
        rcases hsame bytes hbytes with hold | ⟨sid, hsid, rfl⟩
        · exact ⟨bytes, hold, rfl⟩
        · obtain ⟨old, hold, hdecode⟩ := Option.bind_eq_some_iff.1 hsid
          obtain ⟨id, hid, rfl, -⟩ := h.cursor g old hold
          rw [decode_encodeStreamId (h.words hm hid), Option.some.injEq] at hdecode
          exact ⟨_, hold, by rw [hdecode]⟩
      obtain ⟨id, hid, heq, hreturned⟩ := h.cursor g old hold
      exact ⟨id, hid, hcode.trans heq, fun id' hid' hle => mem_append_right _ (hreturned id' hid' hle)⟩
    · cases hbytes.symm.trans hset
      have hwordsE := hreads.words e he
      have hmem : encodeStreamId e.1 ∈ ((r.store.past g).take count).map Prod.fst := by
        rw [← hreads.returned]
        exact mem_map_of_mem he
      obtain ⟨x, hx, hxkey⟩ := mem_map.1 hmem
      obtain ⟨id, hid, hidkey⟩ :=
        (h.queue x.1).1 (mem_map_of_mem (past_subset (mem_of_mem_take hx)))
      refine ⟨id, hid, hxkey.symm.trans hidkey, ?_⟩
      have hcode := congrArg decodeStreamId (hxkey.symm.trans hidkey)
      rw [decode_encodeStreamId hwordsE, decode_encodeStreamId (h.words hm hid), Option.some.injEq] at hcode
      rw [← hcode]
      exact hupto e.1 (readGroupCursor_of_cursor hwordsE hset) hwordsE
  · rw [hreads.others g hg] at hbytes
    obtain ⟨id, hid, heq, hreturned⟩ := h.cursor g bytes hbytes
    exact ⟨id, hid, heq, fun id' hid' hle => mem_append_right _ (hreturned id' hid' hle)⟩

/-- A call within the clock keeps it, and so does a restart. -/
theorem Inv.step (h : Inv m r) (hm : m + 2 < 2 ^ 64) {op : ForwardOp} (hclock : op.Clocked) (hallows : Allows r op)
    (digest : String → String) : Inv (m + 2) (r.step digest op) := by
  cases op with
  | storeMessage clock message toDidHash fromHash expiresAt =>
    have hgiven := h.given.storeMessageAt digest hclock.1 hclock.2 hallows message toDidHash fromHash expiresAt
    exact ⟨hgiven, fun id hid => mem_append_right _ (h.queued id hid), h.queue, h.cursor⟩
  | enqueue nowMs entry maxLen =>
    have hgiven := h.given.alloc hclock hallows.1
    have hgt := (pairwise_cons.1 hgiven.increasing).1
    have hstep : r.step digest (.enqueue nowMs entry maxLen) =
        { r with
          store := (r.store.forwardQueueEnqueue nowMs entry maxLen).2
          used := (r.store.forwardQueueEnqueue nowMs entry maxLen).1 :: r.used
          queued := (r.store.forwardQueueEnqueue nowMs entry maxLen).1 :: r.queued } := rfl
    rw [hstep, enqueue_eq_of_room hallows.2]
    refine ⟨hgiven.mono (Nat.le_succ _), fun id hid => ?_, fun key => ?_, fun group bytes hbytes => ?_⟩
    · rcases mem_cons.1 hid with rfl | hid
      · exact mem_cons_self
      · exact mem_cons_of_mem _ (h.queued id hid)
    · rw [OrdMap.mem_keys_insert, h.queue]
      simp only [mem_cons, exists_eq_or_imp]
    · obtain ⟨last, hlast, heq, hreturned⟩ := h.cursor group bytes hbytes
      refine ⟨last, mem_cons_of_mem _ hlast, heq, fun id hid hle => ?_⟩
      rcases mem_cons.1 hid with rfl | hid
      · -- the new id is past every cursor
        exact absurd hle (not_le.2 (hgt last (h.queued last hlast)))
      · exact hreturned id hid hle
  | read nowMs group consumer count =>
    have hread := h.read (by omega) digest nowMs group consumer count
    exact ⟨hread.given.mono (Nat.le_add_right m 2), hread.queued, hread.queue, hread.cursor⟩
  | restart =>
    exact ⟨h.given.restart.mono (Nat.le_add_right m 2), h.queued, h.queue, h.cursor⟩

theorem exists_group (returned : List (String × StreamId)) : ∃ group, ∀ id, (group, id) ∉ returned := by
  have hinfinite : Infinite String := by
    refine Infinite.of_injective (fun n : ℕ => String.ofList (replicate n 'g')) fun a b hab => ?_
    have hlists := congrArg (fun s : String => s.toList.length) hab
    simpa using hlists
  obtain ⟨group, hgroup⟩ := Infinite.exists_notMem_finset (returned.map Prod.fst).toFinset
  refine ⟨group, fun id hid => hgroup ?_⟩
  rw [mem_toFinset]
  exact mem_map_of_mem hid

/-- An entry that is dropped is not due to a group that has not read yet. -/
theorem room_of_sound (h : Inv m r) (hm : m + 2 < 2 ^ 64) (digest : String → String) {nowMs : ℕ}
    {entry : ForwardQueueEntry} {maxLen : ℕ} (hclock : nowMs < 2 ^ 64) (hahead : ClockAhead r nowMs)
    (hsound : Sound (r.step digest (.enqueue nowMs entry maxLen))) :
    maxLen = 0 ∨ r.store.forwardQueue.length < maxLen := by
  by_contra hroom
  rw [not_or, not_lt] at hroom
  obtain ⟨hpos, hfull⟩ := hroom
  have hfullIf : maxLen > 0 ∧ r.store.forwardQueue.length ≥ maxLen := ⟨Nat.pos_of_ne_zero hpos, hfull⟩
  -- the oldest entry goes
  have hlength : r.store.forwardQueue.keys.length = r.store.forwardQueue.length := length_map ..
  obtain ⟨key, rest, hkeys⟩ := exists_cons_of_length_pos (by omega : 0 < r.store.forwardQueue.keys.length)
  obtain ⟨id, hid, hkey⟩ := (h.queue key).1 (by rw [hkeys]; exact mem_cons_self)
  have hqueue : (r.step digest (.enqueue nowMs entry maxLen)).store.forwardQueue =
      (r.store.forwardQueue.keys.take (r.store.forwardQueue.length - maxLen + 1)).foldl
        (fun queue key => queue.erase key)
        (r.store.forwardQueue.insert (encodeStreamId (r.store.store.allocStreamId nowMs).1) entry) := by
    show (r.store.forwardQueueEnqueue nowMs entry maxLen).2.forwardQueue = _
    unfold ForwardStore.forwardQueueEnqueue
    dsimp only
    rw [if_pos hfullIf]
  have hgone : encodeStreamId id ∉ (r.step digest (.enqueue nowMs entry maxLen)).store.forwardQueue.keys := by
    rw [hqueue, OrdMap.mem_keys]
    simp only [OrdMap.mem_foldl_erase, not_exists, not_and, not_not]
    intro _ _
    rw [hkeys, take_succ_cons, ← hkey]
    exact mem_cons_self
  have hencoded : (r.step digest (.enqueue nowMs entry maxLen)).store.Encoded := by
    have hgiven := h.given.alloc hclock hahead
    refine ⟨fun e he => ?_, (h.encoded (by omega)).cursors⟩
    rw [hqueue, OrdMap.mem_foldl_erase, OrdMap.mem_insert] at he
    rcases he.1 with rfl | ⟨hold, -⟩
    · exact ⟨_, words_of_bounded (hgiven.bounded _ mem_cons_self) (by omega), rfl⟩
    · exact (h.encoded (by omega)).keys e hold
  obtain ⟨group, hgroup⟩ := exists_group r.returned
  rcases hsound.delivered id (mem_cons_of_mem _ hid) group with hreturned | hdue
  · exact hgroup id hreturned
  · obtain ⟨k, hk⟩ := hdue (fun _ => ⟨0, "", 1⟩) fun _ => Nat.one_pos
    exact hgone (ForwardStore.mem_keys_of_readOn hencoded hk)

theorem Inv.allows (h : Inv m r) (hm : m + 2 < 2 ^ 64) {op : ForwardOp} (hclock : op.Clocked)
    (digest : String → String)
    (hsound : Sound (r.step digest op)) : Allows r op := by
  cases op with
  | storeMessage clock message toDidHash fromHash expiresAt =>
    refine (h.given.alloc_gt_iff clock.receive).1 fun id hid => ?_
    obtain ⟨ids, hids⟩ := storeMessageAt_ids digest clock message toDidHash fromHash expiresAt r.store.store
    have hincreasing : ((storeMessageAt digest clock message toDidHash fromHash expiresAt r.store.store).1 ++
        r.used).Pairwise (· > ·) := hsound.increasing
    rw [hids, append_assoc, singleton_append, pairwise_append, pairwise_cons] at hincreasing
    exact hincreasing.2.1.1 id hid
  | enqueue nowMs entry maxLen =>
    have hahead : ClockAhead r nowMs := by
      refine (h.given.alloc_gt_iff nowMs).1 fun id hid => ?_
      exact (pairwise_cons.1 hsound.increasing).1 id hid
    exact ⟨hahead, room_of_sound h hm digest hclock hahead hsound⟩
  | read nowMs group consumer count => exact trivial
  | restart => exact trivial

/-! ## Runs -/

theorem Inv.sound_iff {digest : String → String} {ops : List ForwardOp} (h : Inv m r)
    (hclock : ∀ op ∈ ops, op.Clocked)
    (hm : m + 2 * ops.length < 2 ^ 64) :
    (∀ k, Sound ((ops.take k).foldl (ForwardRun.step digest) r)) ↔
      ∀ k op, ops[k]? = some op → Allows ((ops.take k).foldl (ForwardRun.step digest) r) op := by
  induction ops generalizing m r with
  | nil =>
    refine iff_of_true (fun k => ?_) (fun k op hop => ?_)
    · rw [take_nil]
      exact h.sound (by simpa using hm)
    · rw [getElem?_nil] at hop
      cases hop
  | cons op ops ih =>
    rw [length_cons] at hm
    have hrest := fun op hop => hclock op (mem_cons_of_mem _ hop)
    have hfirst := hclock op mem_cons_self
    constructor
    · intro hsound k x hx
      have hallows := h.allows (by omega) hfirst digest (hsound 1)
      cases k with
      | zero =>
        cases hx
        exact hallows
      | succ k =>
        exact (ih (h.step (by omega) hfirst hallows digest) hrest (by omega)).1 (fun k => hsound (k + 1)) k x hx
    · intro hallows k
      cases k with
      | zero => exact h.sound (by omega)
      | succ k =>
        exact (ih (h.step (by omega) hfirst (hallows 0 op rfl) digest) hrest (by omega)).2
          (fun k x hx => hallows (k + 1) x hx) k

/-- **Ids and deliveries** are sound throughout a run exactly where the clock has not gone back over a restart when
the process gives out its first id, and no entry is queued without room for it. -/
theorem forwardRestarts_sound_iff {digest : String → String} {ops : List ForwardOp} (hclock : ∀ op ∈ ops, op.Clocked)
    (hlength : 2 * ops.length < 2 ^ 64) :
    (∀ k, Sound (run digest (ops.take k))) ↔
      ∀ k op, ops[k]? = some op → Allows (run digest (ops.take k)) op :=
  inv_start.sound_iff hclock (by omega)

def blankEntry : ForwardQueueEntry := ⟨"", "", "", "", "", "", 0, 0, 0, 0, 0⟩

/-- Queued, restarted, and queued again two milliseconds later. -/
theorem forwardRestarts_sound_later :
    Sound (run id [.enqueue 5 blankEntry 0, .restart, .enqueue 7 blankEntry 0]) := by
  have hiff := @forwardRestarts_sound_iff id [.enqueue 5 blankEntry 0, .restart, .enqueue 7 blankEntry 0]
  refine (hiff ?_ (by decide)).2 ?_ 3
  · rintro op hop
    simp only [mem_cons, not_mem_nil, or_false] at hop
    rcases hop with rfl | rfl | rfl
    · show 5 < 2 ^ 64
      decide
    · exact trivial
    · show 7 < 2 ^ 64
      decide
  · rintro k op hop
    rcases k with _ | _ | _ | k
    · cases hop
      exact ⟨fun _ => by decide +kernel, .inl rfl⟩
    · cases hop
      exact trivial
    · cases hop
      refine ⟨fun _ => ?_, .inl rfl⟩
      decide +kernel
    · simp at hop

/-- A run over a restart with which the clock goes back by two milliseconds. -/
def clockBack : List ForwardOp :=
  [.enqueue 5 blankEntry 0, .read 6 "relay" "a" 10, .restart, .enqueue 3 blankEntry 0]

/-- The new id is below the old one and behind the cursor, and its entry is given to nobody. -/
theorem clockBack_lost :
    (run id clockBack).used = [toLex (3, 0), toLex (5, 0)] ∧
      (run id clockBack).queued = [toLex (3, 0), toLex (5, 0)] ∧
      (run id clockBack).returned = [("relay", toLex (5, 0))] ∧
      ¬Due (run id clockBack).store "relay" (toLex (3, 0)) ∧
      ¬∀ k, Sound (run id (clockBack.take k)) := by
  have hused : (run id clockBack).used = [toLex (3, 0), toLex (5, 0)] := by decide +kernel
  have hentries : (run id clockBack).store.forwardQueue.entries =
      [(encodeStreamId (toLex (3, 0)), blankEntry), (encodeStreamId (toLex (5, 0)), blankEntry)] := by decide +kernel
  have hcursor : (run id clockBack).store.groupCursors =
      Function.update (fun _ => none) "relay" (some (encodeStreamId (toLex (5, 0)))) := rfl
  have hwords : Words (toLex (5, 0)) := ⟨by decide, by decide⟩
  have hencoded : (run id clockBack).store.Encoded := by
    refine ⟨fun e he => ?_, fun group sid hsid => ?_⟩
    · rw [hentries] at he
      simp only [mem_cons, not_mem_nil, or_false] at he
      rcases he with rfl | rfl
      · exact ⟨toLex (3, 0), ⟨by decide, by decide⟩, rfl⟩
      · exact ⟨toLex (5, 0), ⟨by decide, by decide⟩, rfl⟩
    · rw [readGroupCursor, hcursor] at hsid
      by_cases hgroup : group = "relay"
      · subst hgroup
        rw [update_self, Option.bind_some, decode_encodeStreamId hwords, Option.some.injEq] at hsid
        exact hsid ▸ hwords
      · rw [update_of_ne hgroup] at hsid
        cases hsid
  have hpast : (run id clockBack).store.past "relay" = [] := by decide +kernel
  refine ⟨hused, by decide +kernel, by decide +kernel, fun hdue => ?_, fun hsound => ?_⟩
  · obtain ⟨k, hk⟩ := hdue (fun _ => ⟨0, "", 1⟩) fun _ => Nat.one_pos
    rw [readOn_of_past_nil hencoded hpast] at hk
    cases hk
  · have hincreasing := (hsound 4).increasing
    have hall : clockBack.take 4 = clockBack := rfl
    rw [hall, hused] at hincreasing
    exact absurd hincreasing (by decide)

end AffinidiTdk.Store.Fjall
