/-
What a delivery leaves alone: storing a message and enqueueing an entry keep every account's ACL
and every access list, and the answer of neither depends on the lists.
-/
import AffinidiTdk.Store.ForwardQueue
import AffinidiTdk.Store.Frame

namespace AffinidiTdk.Store

open Acl MemoryState

/-! ## Permissions across a call -/

/-- The accounts keep their ACLs and the recipients their lists. -/
structure SameAcls (st st' : MemoryState) : Prop where
  accessLists : st'.accessLists = st.accessLists
  acls : ∀ {k r}, st.accounts k = some r → ∃ r', st'.accounts k = some r' ∧ r'.acls = r.acls

namespace SameAcls

variable {st st' st'' : MemoryState}

theorem refl (st : MemoryState) : SameAcls st st := ⟨rfl, fun h => ⟨_, h, rfl⟩⟩

theorem allowed (h : SameAcls st st') {toHash : String} {fromHash : Option String}
    (hallowed : accessListAllowed st toHash fromHash = true) : accessListAllowed st' toHash fromHash = true := by
  unfold accessListAllowed at hallowed ⊢
  cases hr : st.accounts toHash with
  | none => simp [hr] at hallowed
  | some r =>
    obtain ⟨r', hr', hacls⟩ := h.acls hr
    rw [hr] at hallowed
    rw [hr', h.accessLists]
    simpa [hacls] using hallowed

end SameAcls

/-! ## Storing a message -/

section

variable (st : MemoryState) (nowMs : ℕ)

@[simp] theorem allocStreamId_accounts : (st.allocStreamId nowMs).2.accounts = st.accounts := by
  unfold allocStreamId
  split <;> rfl

@[simp] theorem allocStreamId_accessLists : (st.allocStreamId nowMs).2.accessLists = st.accessLists := by
  unfold allocStreamId
  split <;> rfl

@[simp] theorem indexExpiry_accounts (expiresAt : ℕ) (msgId : String) :
    (st.indexExpiry expiresAt msgId).accounts = st.accounts := by
  unfold indexExpiry
  split <;> rfl

variable (digest : String → String) (message toDidHash : String) (fromHash : Option String) (expiresAt : ℕ)

theorem storeMessage_setLists (lists : String → Option (List String)) :
    storeMessage digest nowMs message toDidHash fromHash expiresAt { st with accessLists := lists } =
      ((storeMessage digest nowMs message toDidHash fromHash expiresAt st).1,
        { (storeMessage digest nowMs message toDidHash fromHash expiresAt st).2 with accessLists := lists }) := by
  unfold storeMessage indexExpiry
  by_cases hsender : (fromHash.filter fun s => !s.isEmpty).getD "ANONYMOUS" ≠ "ANONYMOUS"
  · by_cases hnow : nowMs > st.lastStreamMs <;> by_cases hexpires : expiresAt = 0 <;>
      simp [hsender, allocStreamId, hnow, hexpires, upsertAccount, incrCounter]
  · by_cases hnow : nowMs > st.lastStreamMs <;> by_cases hexpires : expiresAt = 0 <;>
      simp [hsender, allocStreamId, hnow, hexpires, upsertAccount, incrCounter]

theorem storeMessage_sameAcls :
    SameAcls st (storeMessage digest nowMs message toDidHash fromHash expiresAt st).2 := by
  constructor
  · exact congrArg (fun answer => answer.2.accessLists)
      (storeMessage_setLists st nowMs digest message toDidHash fromHash expiresAt st.accessLists)
  · intro k r hr
    unfold storeMessage
    by_cases hsender : (fromHash.filter fun s => !s.isEmpty).getD "ANONYMOUS" ≠ "ANONYMOUS"
    · simp only [if_pos hsender, indexExpiry_accounts, incrCounter_accounts, upsertAccount_accounts,
        allocStreamId_accounts]
      split_ifs <;> simp_all
    · simp only [if_neg hsender, indexExpiry_accounts, incrCounter_accounts, upsertAccount_accounts,
        allocStreamId_accounts]
      split_ifs <;> simp_all

theorem forwardQueueEnqueue_sameAcls (entry : ForwardQueueEntry) (maxLen : ℕ) :
    SameAcls st (forwardQueueEnqueue nowMs entry maxLen st).2 := by
  refine ⟨allocStreamId_accessLists st nowMs, ?_⟩
  intro k r hr
  exact ⟨r, (congrFun (allocStreamId_accounts st nowMs) k).trans hr, rfl⟩

theorem forwardQueueEnqueue_setLists (entry : ForwardQueueEntry) (maxLen : ℕ)
    (lists : String → Option (List String)) :
    forwardQueueEnqueue nowMs entry maxLen { st with accessLists := lists } =
      ((forwardQueueEnqueue nowMs entry maxLen st).1,
        { (forwardQueueEnqueue nowMs entry maxLen st).2 with accessLists := lists }) := by
  unfold forwardQueueEnqueue
  by_cases hnow : nowMs > st.lastStreamMs <;> simp [allocStreamId, hnow]

end

end AffinidiTdk.Store
