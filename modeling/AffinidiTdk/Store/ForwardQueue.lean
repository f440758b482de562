/-
The forward queue of the in-memory store (`forward_queue_*`): entries under increasing stream ids,
and for each consumer group a cursor and the claims on what was read and not acknowledged. A
blocking read is its non-blocking attempts, each a call of its own; `Instant`s and clock readings
are in milliseconds.
-/
import AffinidiTdk.Store.Memory

namespace AffinidiTdk.Store

open List MemoryState

/-! ## Operations -/

/-- Appends the entry, then drops the oldest ones past `maxLen`, unless that is zero. -/
def forwardQueueEnqueue (nowMs : ℕ) (entry : ForwardQueueEntry) (maxLen : ℕ) : StoreOp StreamId := fun st =>
  let (id, st) := st.allocStreamId nowMs
  let queue := st.forwardQueue.insert id entry
  let queue := if maxLen > 0 then queue.dropFirst (queue.length - maxLen) else queue
  (.ok id, { st with forwardQueue := queue })

def forwardQueueLen : StoreOp ℕ := fun st => (.ok st.forwardQueue.length, st)

/-- A group as the first use finds it. -/
def MemoryState.forwardGroup (st : MemoryState) (group : String) : ConsumerGroupState :=
  (st.forwardGroups group).getD default

def MemoryState.setForwardGroup (st : MemoryState) (group : String) (g : ConsumerGroupState) : MemoryState :=
  { st with forwardGroups := Function.update st.forwardGroups group (some g) }

/-- A claim on an entry just read, and the cursor past it. -/
def ConsumerGroupState.claim (g : ConsumerGroupState) (consumer : String) (now : ℕ) (id : StreamId) :
    ConsumerGroupState :=
  { pending := g.pending.insert id ⟨consumer, now, 1⟩
    lastDelivered := if id > g.lastDelivered then id else g.lastDelivered }

/-- The first `count` entries past the group's cursor, each claimed for the consumer. -/
def forwardQueueRead (now : ℕ) (group consumer : String) (count : ℕ) :
    StoreOp (List (StreamId × ForwardQueueEntry)) := fun st =>
  let g := st.forwardGroup group
  let candidates := (st.forwardQueue.entries.filter fun e => g.lastDelivered < e.1).take count
  (.ok candidates, st.setForwardGroup group (candidates.foldl (fun g e => g.claim consumer now e.1) g))

def forwardQueueAck (group : String) (ids : List StreamId) : StoreOp Unit := fun st =>
  match st.forwardGroups group with
  | none => (.ok (), st)
  | some g => (.ok (), st.setForwardGroup group { g with pending := ids.foldl (fun p id => p.erase id) g.pending })

def forwardQueueDelete (ids : List StreamId) : StoreOp Unit := fun st =>
  (.ok (), { st with forwardQueue := ids.foldl (fun q id => q.erase id) st.forwardQueue })

/-- Takes over the first `count` claims that have been idle for `minIdle` and returns those of
their entries that are still there. -/
def forwardQueueAutoclaim (now : ℕ) (group consumer : String) (minIdle count : ℕ) :
    StoreOp (List (StreamId × ForwardQueueEntry)) := fun st =>
  match st.forwardGroups group with
  | none => (.ok [], st)
  | some g =>
    let stale := (g.pending.entries.filter fun e => decide (minIdle ≤ now - e.2.claimedAt)).take count
    let pending := stale.foldl
      (fun p e => p.insert e.1 ⟨consumer, now, e.2.deliveryCount + 1⟩) g.pending
    (.ok (stale.filterMap fun e => (st.forwardQueue.get? e.1).map fun entry => (e.1, entry)),
      st.setForwardGroup group { g with pending })

/-! ## Ids and cursors -/

def MemoryState.lastId (st : MemoryState) : StreamId := toLex (st.lastStreamMs, st.nextStreamSeq)

/-- The id up to which a group has read. -/
def MemoryState.cursor (st : MemoryState) (group : String) : StreamId := (st.forwardGroup group).lastDelivered

section

variable (st : MemoryState) (nowMs : ℕ)

theorem allocStreamId_gt : st.lastId < (st.allocStreamId nowMs).1 := by
  unfold allocStreamId lastId
  split
  · rename_i h
    exact Prod.Lex.toLex_lt_toLex.2 (.inl h)
  · exact Prod.Lex.toLex_lt_toLex.2 (.inr ⟨rfl, Nat.lt_succ_self _⟩)

theorem allocStreamId_lastId : (st.allocStreamId nowMs).2.lastId = (st.allocStreamId nowMs).1 := rfl

theorem allocStreamId_queue : (st.allocStreamId nowMs).2.forwardQueue = st.forwardQueue ∧
    (st.allocStreamId nowMs).2.forwardGroups = st.forwardGroups := by
  unfold allocStreamId
  split <;> exact ⟨rfl, rfl⟩

end

/-! ## What the operations do -/

section

variable {st : MemoryState} {group : String}

theorem entries_forwardQueueEnqueue {nowMs : ℕ} {entry : ForwardQueueEntry} {maxLen : ℕ}
    (hle : ∀ x ∈ st.forwardQueue.entries, x.1 ≤ st.lastId) (hroom : maxLen = 0 ∨ st.forwardQueue.length < maxLen) :
    (forwardQueueEnqueue nowMs entry maxLen st).2.forwardQueue.entries =
      st.forwardQueue.entries ++ [((st.allocStreamId nowMs).1, entry)] := by
  have hinsert : ((st.allocStreamId nowMs).2.forwardQueue.insert (st.allocStreamId nowMs).1 entry).entries =
      st.forwardQueue.entries ++ [((st.allocStreamId nowMs).1, entry)] := by
    rw [(allocStreamId_queue st nowMs).1]
    exact OrdMap.entries_insert_of_lt (fun e he => (hle e he).trans_lt (allocStreamId_gt st nowMs)) entry
  unfold forwardQueueEnqueue
  simp only
  split
  · rename_i hpos
    have hlen : ((st.allocStreamId nowMs).2.forwardQueue.insert (st.allocStreamId nowMs).1 entry).length - maxLen
      = 0 := by
      have : ((st.allocStreamId nowMs).2.forwardQueue.insert (st.allocStreamId nowMs).1 entry).length =
          st.forwardQueue.length + 1 := by
        rw [OrdMap.length, hinsert]
        simp [OrdMap.length]
      omega
    rw [hlen, OrdMap.dropFirst_zero, hinsert]
  · exact hinsert

theorem mem_forwardQueueDelete {ids : List StreamId} {x : StreamId × ForwardQueueEntry} :
    x ∈ (forwardQueueDelete ids st).2.forwardQueue.entries ↔ x ∈ st.forwardQueue.entries ∧ x.1 ∉ ids :=
  OrdMap.mem_foldl_erase

/-- What neither an acknowledgement nor an autoclaim touches. -/
structure SameQueue (group : String) (st st' : MemoryState) : Prop where
  queue : st'.forwardQueue = st.forwardQueue
  cursor : st'.cursor group = st.cursor group
  lastId_le : st.lastId ≤ st'.lastId

theorem setForwardGroup_cursor (st : MemoryState) (group : String) (g : ConsumerGroupState) :
    (st.setForwardGroup group g).cursor group = g.lastDelivered := by
  simp [cursor, forwardGroup, setForwardGroup]

theorem forwardQueueAck_sameQueue (ids : List StreamId) : SameQueue group st (forwardQueueAck group ids st).2 := by
  unfold forwardQueueAck
  split
  · exact ⟨rfl, rfl, le_rfl⟩
  · rename_i g hg
    refine ⟨rfl, ?_, le_rfl⟩
    rw [setForwardGroup_cursor]
    simp [cursor, forwardGroup, hg]

theorem forwardQueueAutoclaim_sameQueue (now : ℕ) (consumer : String) (minIdle count : ℕ) :
    SameQueue group st (forwardQueueAutoclaim now group consumer minIdle count st).2 := by
  unfold forwardQueueAutoclaim
  split
  · exact ⟨rfl, rfl, le_rfl⟩
  · rename_i g hg
    refine ⟨rfl, ?_, le_rfl⟩
    rw [setForwardGroup_cursor]
    simp [cursor, forwardGroup, hg]

/-- What a read returns and how far it moves the cursor. -/
structure ReadSpec (group : String) (count : ℕ) (st : MemoryState) (items : List (StreamId × ForwardQueueEntry))
    (st' : MemoryState) : Prop where
  queue : st'.forwardQueue = st.forwardQueue
  lastId : st'.lastId = st.lastId
  unread : ∀ x ∈ items, x ∈ st.forwardQueue.entries ∧ st.cursor group < x.1
  nodup : (items.map Prod.fst).Nodup
  cursor_le : st.cursor group ≤ st'.cursor group
  items_le : ∀ x ∈ items, x.1 ≤ st'.cursor group
  cursor_mem : st'.cursor group = st.cursor group ∨ ∃ x ∈ items, st'.cursor group = x.1
  complete : ∀ x ∈ st.forwardQueue.entries, st.cursor group < x.1 → x.1 ≤ st'.cursor group → x ∈ items
  nonempty : 0 < count → (∃ x ∈ st.forwardQueue.entries, st.cursor group < x.1) → items ≠ []

theorem foldl_claim_lastDelivered (consumer : String) (now : ℕ) (items : List (StreamId × ForwardQueueEntry))
    (g : ConsumerGroupState) :
    let g' := items.foldl (fun g e => g.claim consumer now e.1) g
    g.lastDelivered ≤ g'.lastDelivered ∧ (∀ x ∈ items, x.1 ≤ g'.lastDelivered) ∧
      (g'.lastDelivered = g.lastDelivered ∨ ∃ x ∈ items, g'.lastDelivered = x.1) := by
  induction items generalizing g with
  | nil => simp
  | cons y items ih =>
    obtain ⟨hle, hitems, hmem⟩ := ih (g.claim consumer now y.1)
    have hclaim : (g.claim consumer now y.1).lastDelivered = max g.lastDelivered y.1 := by
      simp only [ConsumerGroupState.claim, gt_iff_lt]
      split
      · rename_i h
        exact (max_eq_right h.le).symm
      · rename_i h
        exact (max_eq_left (not_lt.1 h)).symm
    rw [hclaim] at hle hmem
    refine ⟨(le_max_left _ _).trans hle, ?_, ?_⟩
    · intro x hx
      rcases mem_cons.1 hx with rfl | hx
      · exact (le_max_right _ _).trans hle
      · exact hitems x hx
    · rcases hmem with hmem | ⟨x, hx, hmem⟩
      · rcases max_choice g.lastDelivered y.1 with h | h
        · exact .inl (hmem.trans h)
        · exact .inr ⟨y, mem_cons_self, hmem.trans h⟩
      · exact .inr ⟨x, mem_cons_of_mem _ hx, hmem⟩

theorem mem_take_of_le {l : List (StreamId × ForwardQueueEntry)} (hl : l.Pairwise fun a b => a.1 < b.1) {n : ℕ}
    {x y : StreamId × ForwardQueueEntry} (hy : y ∈ l.take n) (hx : x ∈ l) (hle : x.1 ≤ y.1) : x ∈ l.take n := by
  rw [← take_append_drop n l] at hl hx
  rcases mem_append.1 hx with hx | hx
  · exact hx
  · exact absurd hle (not_le.2 ((pairwise_append.1 hl).2.2 y hy x hx))

theorem forwardQueueRead_spec (now : ℕ) (group consumer : String) (count : ℕ) (st : MemoryState) :
    ∃ items st', forwardQueueRead now group consumer count st = (.ok items, st') ∧
      ReadSpec group count st items st' := by
  refine ⟨_, _, rfl, ?_⟩
  have hcursor := foldl_claim_lastDelivered consumer now
    ((st.forwardQueue.entries.filter fun e => (st.forwardGroup group).lastDelivered < e.1).take count)
    (st.forwardGroup group)
  have hsorted := st.forwardQueue.sorted.filter fun e => decide ((st.forwardGroup group).lastDelivered < e.1)
  obtain ⟨hle, hitems, hmem⟩ := hcursor
  have hunread : ∀ x ∈ (st.forwardQueue.entries.filter fun e => (st.forwardGroup group).lastDelivered < e.1).take
    count,
      x ∈ st.forwardQueue.entries ∧ (st.forwardGroup group).lastDelivered < x.1 := by
    intro x hx
    simpa using mem_of_mem_take hx
  constructor
  · rfl
  · rfl
  · exact hunread
  · exact (pairwise_map.2 ((hsorted.sublist (take_sublist _ _)).imp fun h => h.ne))
  · rw [setForwardGroup_cursor]
    exact hle
  · rw [setForwardGroup_cursor]
    exact hitems
  · rw [setForwardGroup_cursor]
    exact hmem
  · intro x hx hlt hxle
    rw [setForwardGroup_cursor] at hxle
    rcases hmem with hmem | ⟨y, hy, hmem⟩
    · exact absurd (hxle.trans_eq hmem) (not_le.2 hlt)
    · exact mem_take_of_le hsorted hy (mem_filter.2 ⟨hx, decide_eq_true hlt⟩) (hxle.trans_eq hmem)
  · rintro hcount ⟨x, hx, hlt⟩ hnil
    rcases take_eq_nil_iff.1 hnil with h | h
    · omega
    · exact filter_eq_nil_iff.1 h x hx (decide_eq_true hlt)

end

end AffinidiTdk.Store
