/-
At-least-once delivery of the in-memory forward queue: runs of the queue's calls by any consumers of
any groups, watched from one group. The clock readings are arbitrary, so a stream id may carry a
millisecond that has long passed; only the allocator keeps the ids increasing.
-/
import AffinidiTdk.Store.ForwardQueue

namespace AffinidiTdk.Store

open List OrdMap MemoryState

/-! ## Runs -/

/-- A call on the forward queue, with the clock reading it takes. -/
inductive QueueCall
  | enqueue (nowMs : ℕ) (entry : ForwardQueueEntry)
  | read (now : ℕ) (group consumer : String) (count : ℕ)
  | ack (group : String) (ids : List StreamId)
  | delete (ids : List StreamId)
  | autoclaim (now : ℕ) (group consumer : String) (minIdle count : ℕ)

namespace QueueCall

def exec (st : MemoryState) : QueueCall → MemoryState
  | enqueue nowMs entry => (forwardQueueEnqueue nowMs entry 0 st).2
  | read now group consumer count => (forwardQueueRead now group consumer count st).2
  | ack group ids => (forwardQueueAck group ids st).2
  | delete ids => (forwardQueueDelete ids st).2
  | autoclaim now group consumer minIdle count => (forwardQueueAutoclaim now group consumer minIdle count st).2

def readIds (group : String) (st : MemoryState) : QueueCall → List StreamId
  | read now g consumer count =>
    if g = group then
      match (forwardQueueRead now g consumer count st).1 with
      | .ok items => items.map Prod.fst
      | .error _ => []
    else []
  | _ => []

/-- The ids a read or an autoclaim of the group returns. -/
def returnedIds (group : String) (st : MemoryState) : QueueCall → List StreamId
  | autoclaim now g consumer minIdle count =>
    if g = group then
      match (forwardQueueAutoclaim now g consumer minIdle count st).1 with
      | .ok items => items.map Prod.fst
      | .error _ => []
    else []
  | call => call.readIds group st

/-- Of the ids the group was given before, those that it acknowledges with this call. -/
def ackedIds (group : String) (given : List StreamId) : QueueCall → List StreamId
  | ack g ids => if g = group then ids.filter (· ∈ given) else []
  | _ => []

end QueueCall

/-- The store, and what one group has seen of it. -/
structure Observation where
  store : MemoryState
  read : List StreamId
  returned : List StreamId
  acked : List StreamId

def Observation.step (group : String) (o : Observation) (call : QueueCall) : Observation :=
  { store := call.exec o.store
    read := o.read ++ call.readIds group o.store
    returned := o.returned ++ call.returnedIds group o.store
    acked := o.acked ++ call.ackedIds group o.returned }

/-- The calls in order, from the empty store. -/
def observe (group : String) (calls : List QueueCall) : Observation :=
  calls.foldl (Observation.step group) ⟨default, [], [], []⟩

/-- What a group has read and not acknowledged. -/
def MemoryState.pendingIds (st : MemoryState) (group : String) : List StreamId :=
    (st.forwardGroup group).pending.keys

/-! ## The invariant -/

/-- Whatever is in the queue is ahead of the group's cursor, pending in the group, or acknowledged
by it; what it was given is behind the cursor. -/
structure Accounted (group : String) (o : Observation) : Prop where
  queue_le : ∀ x ∈ o.store.forwardQueue.entries, x.1 ≤ o.store.lastId
  cursor_le : o.store.cursor group ≤ o.store.lastId
  read_nodup : o.read.Nodup
  read_returned : ∀ id ∈ o.read, id ∈ o.returned
  returned_le : ∀ id ∈ o.returned, id ≤ o.store.cursor group
  pending_returned : ∀ id ∈ o.store.pendingIds group, id ∈ o.returned
  acked_returned : ∀ id ∈ o.acked, id ∈ o.returned
  acked_not_pending : ∀ id ∈ o.acked, id ∉ o.store.pendingIds group
  covered : ∀ x ∈ o.store.forwardQueue.entries,
    o.store.cursor group < x.1 ∨ x.1 ∈ o.store.pendingIds group ∨ x.1 ∈ o.acked

section

variable {group : String} {o : Observation}

theorem accounted_start (group : String) : Accounted group ⟨default, [], [], []⟩ where
  queue_le := by intro x hx; cases hx
  cursor_le := le_rfl
  read_nodup := .nil
  read_returned := by simp
  returned_le := by simp
  pending_returned := by intro id hid; cases hid
  acked_returned := by simp
  acked_not_pending := by simp
  covered := by intro x hx; cases hx

/-- A call that leaves the group as it is, gives it nothing and at most takes entries away. -/
theorem Accounted.frame (h : Accounted group o) {st' : MemoryState}
    (hqueue : ∀ x ∈ st'.forwardQueue.entries, x ∈ o.store.forwardQueue.entries)
    (hlast : st'.lastId = o.store.lastId) (hgroup : st'.forwardGroup group = o.store.forwardGroup group) :
    Accounted group { o with store := st' } := by
  have hcursor : st'.cursor group = o.store.cursor group := by rw [cursor, hgroup, cursor]
  have hpending : st'.pendingIds group = o.store.pendingIds group := by
    rw [pendingIds, hgroup, pendingIds]
  constructor
  · intro x hx
    rw [hlast]
    exact h.queue_le x (hqueue x hx)
  · simp only [hcursor, hlast]
    exact h.cursor_le
  · exact h.read_nodup
  · exact h.read_returned
  · simp only [hcursor]
    exact h.returned_le
  · simp only [hpending]
    exact h.pending_returned
  · exact h.acked_returned
  · simp only [hpending]
    exact h.acked_not_pending
  · intro x hx
    simp only [hcursor, hpending]
    exact h.covered x (hqueue x hx)

variable {g : String}

theorem forwardGroup_setForwardGroup_of_ne (hne : g ≠ group) (st : MemoryState) (s : ConsumerGroupState) :
    (st.setForwardGroup g s).forwardGroup group = st.forwardGroup group := by
  simp only [forwardGroup, setForwardGroup, Function.update_of_ne hne.symm]

theorem forwardGroup_setForwardGroup (st : MemoryState) (s : ConsumerGroupState) :
    (st.setForwardGroup group s).forwardGroup group = s := by
  simp [forwardGroup, setForwardGroup]

theorem Accounted.enqueue (h : Accounted group o) (nowMs : ℕ) (entry : ForwardQueueEntry) :
    Accounted group { o with store := (forwardQueueEnqueue nowMs entry 0 o.store).2 } := by
  have hgt : o.store.lastId < (o.store.allocStreamId nowMs).1 := allocStreamId_gt o.store nowMs
  have hlast : (forwardQueueEnqueue nowMs entry 0 o.store).2.lastId = (o.store.allocStreamId nowMs).1 := rfl
  have hgroups : (forwardQueueEnqueue nowMs entry 0 o.store).2.forwardGroup group = o.store.forwardGroup group := by
    have hsame : (forwardQueueEnqueue nowMs entry 0 o.store).2.forwardGroups = o.store.forwardGroups :=
      (allocStreamId_queue o.store nowMs).2
    rw [forwardGroup, hsame, forwardGroup]
  have hqueue : (forwardQueueEnqueue nowMs entry 0 o.store).2.forwardQueue.entries =
      o.store.forwardQueue.entries ++ [((o.store.allocStreamId nowMs).1, entry)] :=
    entries_forwardQueueEnqueue h.queue_le (.inl rfl)
  have hcursor : (forwardQueueEnqueue nowMs entry 0 o.store).2.cursor group = o.store.cursor group := by
    rw [cursor, hgroups, cursor]
  have hpending : (forwardQueueEnqueue nowMs entry 0 o.store).2.pendingIds group = o.store.pendingIds group := by
    rw [pendingIds, hgroups, pendingIds]
  constructor
  · intro x hx
    simp only [hqueue, mem_append, mem_singleton] at hx
    rw [hlast]
    rcases hx with hx | rfl
    · exact (h.queue_le x hx).trans hgt.le
    · exact le_rfl
  · simp only [hcursor, hlast]
    exact h.cursor_le.trans hgt.le
  · exact h.read_nodup
  · exact h.read_returned
  · simp only [hcursor]
    exact h.returned_le
  · simp only [hpending]
    exact h.pending_returned
  · exact h.acked_returned
  · simp only [hpending]
    exact h.acked_not_pending
  · intro x hx
    simp only [hqueue, mem_append, mem_singleton] at hx
    simp only [hcursor, hpending]
    rcases hx with hx | rfl
    · exact h.covered x hx
    · exact .inl (h.cursor_le.trans_lt hgt)

variable {id : StreamId}

theorem mem_foldl_claim_pending (consumer : String) (now : ℕ) (items : List (StreamId × ForwardQueueEntry))
    (g : ConsumerGroupState) : id ∈ (items.foldl (fun g e => g.claim consumer now e.1) g).pending.keys ↔ id ∈
    g.pending.keys ∨ id ∈ items.map Prod.fst := by
  induction items generalizing g with
  | nil => simp
  | cons y items ih =>
    rw [foldl_cons, ih, ConsumerGroupState.claim, mem_keys_insert, map_cons, mem_cons]
    tauto

theorem Accounted.read (h : Accounted group o) (now : ℕ) (consumer : String) (count : ℕ) {items st'}
    (hread : forwardQueueRead now group consumer count o.store = (.ok items, st')) :
    Accounted group { o with
      store := st'
      read := o.read ++ items.map Prod.fst
      returned := o.returned ++ items.map Prod.fst } := by
  obtain ⟨items', st'', heq, hspec⟩ := forwardQueueRead_spec now group consumer count o.store
  obtain ⟨rfl, rfl⟩ : items = items' ∧ st' = st'' := by simpa [hread] using heq
  have hpending : ∀ id, id ∈ st'.pendingIds group ↔ id ∈ o.store.pendingIds group ∨ id ∈ items.map Prod.fst := by
    intro id
    obtain ⟨hitems, rfl⟩ := Prod.ext_iff.1 hread
    cases hitems
    rw [pendingIds, forwardQueueRead, forwardGroup_setForwardGroup, mem_foldl_claim_pending,
      pendingIds]
  constructor
  · intro x hx
    rw [hspec.lastId]
    exact h.queue_le x (hspec.queue ▸ hx)
  · rcases hspec.cursor_mem with hsame | ⟨x, hx, hlast⟩
    · rw [hsame, hspec.lastId]
      exact h.cursor_le
    · rw [hlast, hspec.lastId]
      exact h.queue_le x (hspec.unread x hx).1
  · refine nodup_append.2 ⟨h.read_nodup, hspec.nodup, ?_⟩
    -- what was read before is behind the cursor, what is read now ahead of it
    rintro id hid _ hid' rfl
    obtain ⟨x, hx, rfl⟩ := mem_map.1 hid'
    exact absurd (h.returned_le _ (h.read_returned _ hid)) (not_le.2 (hspec.unread x hx).2)
  · intro id hid
    rcases mem_append.1 hid with hid | hid
    · exact mem_append_left _ (h.read_returned id hid)
    · exact mem_append_right _ hid
  · intro id hid
    rcases mem_append.1 hid with hid | hid
    · exact (h.returned_le id hid).trans hspec.cursor_le
    · obtain ⟨x, hx, rfl⟩ := mem_map.1 hid
      exact hspec.items_le x hx
  · intro id hid
    rcases (hpending id).1 hid with hid | hid
    · exact mem_append_left _ (h.pending_returned id hid)
    · exact mem_append_right _ hid
  · exact fun id hid => mem_append_left _ (h.acked_returned id hid)
  · intro id hid hmem
    rcases (hpending id).1 hmem with hmem | hmem
    · exact h.acked_not_pending id hid hmem
    · obtain ⟨x, hx, rfl⟩ := mem_map.1 hmem
      exact absurd (h.returned_le _ (h.acked_returned _ hid)) (not_le.2 (hspec.unread x hx).2)
  · intro x hx
    have hx : x ∈ o.store.forwardQueue.entries := hspec.queue ▸ hx
    rcases h.covered x hx with hlt | hmem | hmem
    · rcases lt_or_ge (st'.cursor group) x.1 with hlt' | hle
      · exact .inl hlt'
      · have hitem : x ∈ items := hspec.complete x hx hlt hle
        exact .inr (.inl ((hpending _).2 (.inr (mem_map_of_mem hitem))))
    · exact .inr (.inl ((hpending _).2 (.inl hmem)))
    · exact .inr (.inr hmem)

theorem Accounted.ack (h : Accounted group o) (ids : List StreamId) :
    Accounted group { o with
      store := (forwardQueueAck group ids o.store).2
      acked := o.acked ++ ids.filter (· ∈ o.returned) } := by
  have hsame : SameQueue group o.store (forwardQueueAck group ids o.store).2 := forwardQueueAck_sameQueue ids
  have hlast : (forwardQueueAck group ids o.store).2.lastId = o.store.lastId := by
    unfold forwardQueueAck
    split <;> rfl
  have hpending : ∀ id, id ∈ (forwardQueueAck group ids o.store).2.pendingIds group ↔
      id ∈ o.store.pendingIds group ∧ id ∉ ids := by
    intro id
    unfold forwardQueueAck pendingIds
    split
    · rename_i hnone
      have hempty : (o.store.forwardGroup group).pending.keys = [] := by
        rw [forwardGroup, hnone]
        rfl
      simp [hempty]
    · rename_i g hg
      have hgroup : o.store.forwardGroup group = g := by rw [forwardGroup, hg, Option.getD_some]
      rw [forwardGroup_setForwardGroup, hgroup]
      simp only [OrdMap.mem_keys, mem_foldl_erase, exists_and_right]
  constructor
  · intro x hx
    rw [hlast]
    exact h.queue_le x (hsame.queue ▸ hx)
  · rw [hsame.cursor, hlast]
    exact h.cursor_le
  · exact h.read_nodup
  · exact h.read_returned
  · rw [hsame.cursor]
    exact h.returned_le
  · exact fun id hid => h.pending_returned id ((hpending id).1 hid).1
  · intro id hid
    rcases mem_append.1 hid with hid | hid
    · exact h.acked_returned id hid
    · simpa using (mem_filter.1 hid).2
  · intro id hid hmem
    obtain ⟨hmem, hnot⟩ := (hpending id).1 hmem
    rcases mem_append.1 hid with hid | hid
    · exact h.acked_not_pending id hid hmem
    · exact hnot (mem_filter.1 hid).1
  · intro x hx
    rw [hsame.cursor]
    rcases h.covered x (hsame.queue ▸ hx) with hlt | hmem | hmem
    · exact .inl hlt
    · by_cases hids : x.1 ∈ ids
      · -- acknowledged just now, and given before since it was pending
        have hreturned : x.1 ∈ o.returned := h.pending_returned _ hmem
        exact .inr (.inr (mem_append_right _ (mem_filter.2 ⟨hids, by simpa using hreturned⟩)))
      · exact .inr (.inl ((hpending _).2 ⟨hmem, hids⟩))
    · exact .inr (.inr (mem_append_left _ hmem))

theorem mem_foldl_takeover (consumer : String) (now : ℕ) (stale : List (StreamId × PendingClaim))
    (pending : OrdMap StreamId PendingClaim) (hstale : ∀ e ∈ stale, e.1 ∈ pending.keys) :
    id ∈ (stale.foldl (fun p e => p.insert e.1 ⟨consumer, now, e.2.deliveryCount + 1⟩) pending).keys ↔ id ∈
    pending.keys := by
  induction stale generalizing pending with
  | nil => rfl
  | cons e stale ih =>
    have hrest : ∀ e' ∈ stale, e'.1 ∈ (pending.insert e.1 ⟨consumer, now, e.2.deliveryCount + 1⟩).keys :=
      fun e' he' => mem_keys_insert.2 (.inr (hstale e' (mem_cons_of_mem _ he')))
    rw [foldl_cons, ih _ hrest, mem_keys_insert]
    exact ⟨fun h => h.elim (fun h => h ▸ hstale e mem_cons_self) fun h => h, .inr⟩

theorem forwardQueueAutoclaim_pending (group : String) (now : ℕ) (consumer : String) (minIdle count : ℕ)
    (st : MemoryState) :
    ∃ items st', forwardQueueAutoclaim now group consumer minIdle count st = (.ok items, st') ∧
      st'.lastId = st.lastId ∧ (∀ x ∈ items, x.1 ∈ st.pendingIds group) ∧
      ∀ id, id ∈ st'.pendingIds group ↔ id ∈ st.pendingIds group := by
  unfold forwardQueueAutoclaim
  split
  · exact ⟨_, _, rfl, rfl, by simp, fun _ => Iff.rfl⟩
  · rename_i g hg
    have hgroup : st.forwardGroup group = g := by rw [forwardGroup, hg, Option.getD_some]
    have hstale : ∀ e ∈ (g.pending.entries.filter fun e => decide (minIdle ≤ now - e.2.claimedAt)).take count,
        e.1 ∈ g.pending.keys :=
      fun e he => mem_map_of_mem (mem_of_mem_filter (mem_of_mem_take he))
    refine ⟨_, _, rfl, rfl, ?_, ?_⟩
    · intro x hx
      obtain ⟨e, he, hxe⟩ := mem_filterMap.1 hx
      obtain ⟨entry, -, rfl⟩ := Option.map_eq_some_iff.1 hxe
      rw [pendingIds, hgroup]
      exact hstale e he
    · intro id
      rw [pendingIds, forwardGroup_setForwardGroup, pendingIds, hgroup]
      exact mem_foldl_takeover consumer now _ _ hstale

theorem Accounted.autoclaim (h : Accounted group o) (now : ℕ) (consumer : String) (minIdle count : ℕ) {items st'}
    (hclaim : forwardQueueAutoclaim now group consumer minIdle count o.store = (.ok items, st')) :
    Accounted group { o with store := st', returned := o.returned ++ items.map Prod.fst } := by
  obtain ⟨items', st'', heq, hlast, hitems, hpending⟩ :=
    forwardQueueAutoclaim_pending group now consumer minIdle count o.store
  obtain ⟨rfl, rfl⟩ : items = items' ∧ st' = st'' := by simpa [hclaim] using heq
  have hsame : SameQueue group o.store st' := by
    have hsame : SameQueue group o.store (forwardQueueAutoclaim now group consumer minIdle count o.store).2 :=
      forwardQueueAutoclaim_sameQueue now consumer minIdle count
    rwa [hclaim] at hsame
  have hnew : ∀ id ∈ items.map Prod.fst, id ∈ o.returned := by
    intro id hid
    obtain ⟨x, hx, rfl⟩ := mem_map.1 hid
    exact h.pending_returned _ (hitems x hx)
  constructor
  · intro x hx
    rw [hlast]
    exact h.queue_le x (hsame.queue ▸ hx)
  · rw [hsame.cursor, hlast]
    exact h.cursor_le
  · exact h.read_nodup
  · exact fun id hid => mem_append_left _ (h.read_returned id hid)
  · intro id hid
    rw [hsame.cursor]
    rcases mem_append.1 hid with hid | hid
    · exact h.returned_le id hid
    · exact h.returned_le id (hnew id hid)
  · exact fun id hid => mem_append_left _ (h.pending_returned id ((hpending id).1 hid))
  · exact fun id hid => mem_append_left _ (h.acked_returned id hid)
  · exact fun id hid hmem => h.acked_not_pending id hid ((hpending id).1 hmem)
  · intro x hx
    rw [hsame.cursor, hpending]
    exact h.covered x (hsame.queue ▸ hx)

/-! ## Runs keep the account -/

theorem observe_concat (group : String) (calls : List QueueCall) (call : QueueCall) :
    observe group (calls ++ [call]) = (observe group calls).step group call := by
  simp [observe]

variable {call : QueueCall}

open QueueCall

theorem forwardGroup_exec_of_ne (hne : g ≠ group) (st : MemoryState)
    (hcall : (∃ now consumer count, call = .read now g consumer count) ∨ (∃ ids, call = .ack g ids) ∨
    ∃ now consumer minIdle count, call = .autoclaim now g consumer minIdle count) : (call.exec st).forwardQueue =
    st.forwardQueue ∧ (call.exec st).lastId = st.lastId ∧ (call.exec st).forwardGroup group =
    st.forwardGroup group := by
  rcases hcall with ⟨now, consumer, count, rfl⟩ | ⟨ids, rfl⟩ | ⟨now, consumer, minIdle, count, rfl⟩
  · exact ⟨rfl, rfl, forwardGroup_setForwardGroup_of_ne hne _ _⟩
  · simp only [exec, forwardQueueAck]
    split
    · exact ⟨rfl, rfl, rfl⟩
    · exact ⟨rfl, rfl, forwardGroup_setForwardGroup_of_ne hne _ _⟩
  · simp only [exec, forwardQueueAutoclaim]
    split
    · exact ⟨rfl, rfl, rfl⟩
    · exact ⟨rfl, rfl, forwardGroup_setForwardGroup_of_ne hne _ _⟩

theorem Accounted.other (h : Accounted group o) (hne : g ≠ group)
    (hcall : (∃ now consumer count, call = .read now g consumer count) ∨ (∃ ids, call = .ack g ids) ∨
    ∃ now consumer minIdle count, call = .autoclaim now g consumer minIdle count) : Accounted group
    { o with store := call.exec o.store } := by
  obtain ⟨hqueue, hlast, hgroup⟩ := forwardGroup_exec_of_ne hne o.store hcall
  exact h.frame (fun x hx => hqueue ▸ hx) hlast hgroup

/-- No call loses an entry for the group. -/
theorem Accounted.step (h : Accounted group o) (call : QueueCall) : Accounted group (o.step group call) := by
  unfold Observation.step
  cases call with
  | enqueue nowMs entry =>
    simp only [readIds, returnedIds, ackedIds, append_nil]
    exact h.enqueue nowMs entry
  | delete ids =>
    simp only [readIds, returnedIds, ackedIds, append_nil]
    exact h.frame (fun x hx => (mem_forwardQueueDelete.1 hx).1) rfl rfl
  | read now g consumer count =>
    by_cases hg : g = group
    · subst hg
      obtain ⟨items, st', hread, -⟩ := forwardQueueRead_spec now g consumer count o.store
      simp only [exec, readIds, returnedIds, ackedIds, if_true, hread,
        append_nil]
      exact h.read now consumer count hread
    · simp only [readIds, returnedIds, ackedIds, if_neg hg, append_nil]
      exact h.other hg (.inl ⟨_, _, _, rfl⟩)
  | ack g ids =>
    by_cases hg : g = group
    · subst hg
      simp only [readIds, returnedIds, ackedIds, if_true, append_nil]
      exact h.ack ids
    · simp only [readIds, returnedIds, ackedIds, if_neg hg, append_nil]
      exact h.other hg (.inr (.inl ⟨_, rfl⟩))
  | autoclaim now g consumer minIdle count =>
    by_cases hg : g = group
    · subst hg
      obtain ⟨items, st', hclaim, -⟩ := forwardQueueAutoclaim_pending g now consumer minIdle count o.store
      simp only [exec, readIds, returnedIds, ackedIds, if_true, hclaim,
        append_nil]
      exact h.autoclaim now consumer minIdle count hclaim
    · simp only [readIds, returnedIds, ackedIds, if_neg hg, append_nil]
      exact h.other hg (.inr (.inr ⟨_, _, _, _, rfl⟩))

theorem accounted_observe (group : String) (calls : List QueueCall) : Accounted group (observe group calls) := by
  induction calls using List.reverseRecOn with
  | nil => exact accounted_start group
  | append_singleton calls call ih =>
    rw [observe_concat]
    exact ih.step call

theorem acked_observe_append {calls : List QueueCall} (h : id ∈ (observe group calls).acked)
    (more : List QueueCall) : id ∈ (observe group (calls ++ more)).acked := by
  induction more using List.reverseRecOn with
  | nil => simpa using h
  | append_singleton more call ih =>
    rw [← append_assoc, observe_concat]
    exact mem_append_left _ ih

/-! ## Delivery -/

variable {st : MemoryState}

theorem returnedIds_cases (h : id ∈ call.returnedIds group st) :
    st.cursor group < id ∨ id ∈ st.pendingIds group := by
  cases call with
  | enqueue nowMs entry => cases h
  | delete ids => cases h
  | ack g ids => cases h
  | read now g consumer count =>
    simp only [returnedIds, readIds] at h
    by_cases hg : g = group
    · subst hg
      obtain ⟨items, st', hread, hspec⟩ := forwardQueueRead_spec now g consumer count st
      simp only [if_true, hread] at h
      obtain ⟨x, hx, rfl⟩ := mem_map.1 h
      exact .inl (hspec.unread x hx).2
    · simp [if_neg hg] at h
  | autoclaim now g consumer minIdle count =>
    simp only [returnedIds] at h
    by_cases hg : g = group
    · subst hg
      obtain ⟨items, st', hclaim, -, hitems, -⟩ := forwardQueueAutoclaim_pending g now consumer minIdle count st
      simp only [if_true, hclaim] at h
      obtain ⟨x, hx, rfl⟩ := mem_map.1 h
      exact .inr (hitems x hx)
    · simp [if_neg hg] at h

variable {x : StreamId × ForwardQueueEntry}

theorem mem_readIds (hx : x ∈ st.forwardQueue.entries) (hlt : st.cursor group < x.1) {count : ℕ}
    (hcount : st.forwardQueue.length ≤ count) (now : ℕ) (consumer : String) :
    x.1 ∈ (read now group consumer count).readIds group st := by
  simp only [readIds, if_true, forwardQueueRead]
  refine mem_map_of_mem ?_
  rw [take_of_length_le ((length_filter_le _ _).trans hcount)]
  exact mem_filter.2 ⟨hx, decide_eq_true hlt⟩

/-- An autoclaim of everything pending, however short it has been idle, returns every pending entry. -/
theorem mem_autoclaim (hx : x ∈ st.forwardQueue.entries) (hpending : x.1 ∈ st.pendingIds group) {count : ℕ}
    (hcount : (st.pendingIds group).length ≤ count) (now : ℕ) (consumer : String) :
    x.1 ∈ (autoclaim now group consumer 0 count).returnedIds group st := by
  simp only [returnedIds, if_true, forwardQueueAutoclaim]
  cases hg : st.forwardGroups group with
  | none =>
    rw [pendingIds, forwardGroup, hg] at hpending
    cases hpending
  | some g =>
    have hgroup : st.forwardGroup group = g := by rw [forwardGroup, hg, Option.getD_some]
    rw [pendingIds, hgroup] at hpending hcount
    obtain ⟨e, he, hxe⟩ := mem_map.1 hpending
    have hlen : g.pending.entries.length ≤ count := by simpa [OrdMap.keys] using hcount
    simp only [zero_le, decide_true, filter_true, take_of_length_le hlen]
    refine mem_map.2 ⟨x, mem_filterMap.2 ⟨e, he, ?_⟩, rfl⟩
    rw [hxe, get?_eq_some_iff.2 (show (x.1, x.2) ∈ _ from hx)]
    rfl

end

/-- In every run a group reads no id twice; each entry of the queue is still to be read by the
group, or pending in it and returned by an autoclaim of everything, or acknowledged by it; and what
the group was given and has acknowledged is not returned to it again. -/
theorem forwardQueue_delivers_at_least_once (group : String) (calls : List QueueCall) :
    (observe group calls).read.Nodup ∧
    (∀ x ∈ (observe group calls).store.forwardQueue.entries, ((observe group calls).store.cursor group < x.1 ∧
        ∀ now consumer count, (observe group calls).store.forwardQueue.length ≤ count →
          x.1 ∈ (QueueCall.read now group consumer count).readIds group (observe group calls).store) ∨
      (x.1 ∈ (observe group calls).store.pendingIds group ∧
        ∀ now consumer count, ((observe group calls).store.pendingIds group).length ≤ count →
          x.1 ∈ (QueueCall.autoclaim now group consumer 0 count).returnedIds group (observe group calls).store) ∨
      x.1 ∈ (observe group calls).acked) ∧
    ∀ id ∈ (observe group calls).acked, ∀ more call,
      id ∉ QueueCall.returnedIds group (observe group (calls ++ more)).store call := by
  have hinv := accounted_observe group calls
  refine ⟨hinv.read_nodup, ?_, ?_⟩
  · intro x hx
    rcases hinv.covered x hx with hlt | hpending | hacked
    · exact .inl ⟨hlt, fun now consumer count hcount => mem_readIds hx hlt hcount now consumer⟩
    · exact .inr (.inl ⟨hpending, fun now consumer count hcount => mem_autoclaim hx hpending hcount now consumer⟩)
    · exact .inr (.inr hacked)
  · intro id hid more call hreturned
    have hlater := accounted_observe group (calls ++ more)
    have hacked : id ∈ (observe group (calls ++ more)).acked := acked_observe_append hid more
    rcases returnedIds_cases hreturned with hlt | hpending
    · exact absurd (hlater.returned_le id (hlater.acked_returned id hacked)) (not_le.2 hlt)
    · exact hlater.acked_not_pending id hacked hpending

end AffinidiTdk.Store
