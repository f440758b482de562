/-
A purge of one inbox against stores for the same recipient, lock by lock. `store_message` takes the
store's lock once; `purge_folder` takes it for the list of ids, twice for each id, and once more to
drop the stream. A message that is stored between the list and the drop keeps its body and loses its
place in the inbox.
-/
import AffinidiTdk.Store.ConsistentRuns

namespace AffinidiTdk.Store

open Function List
open Acl

/-! ## Steps -/

/-- Where a purge stands between two lock acquisitions. -/
inductive PurgePc
  | start
  | next (ids : List String) (count bytes : ℕ)
  | delete (msgId : String) (bytesBefore : ℕ) (ids : List String) (count bytes : ℕ)
  | finished (count bytes : ℕ)
  deriving DecidableEq

/-- One lock section of `purge_folder` on an inbox. -/
def PurgePc.step (didHash : String) (st : MemoryState) : PurgePc → PurgePc × MemoryState
  | .start =>
    (.next (((folderStream .inbox st didHash).map fun s => s.values.map StreamEntry.msgId).getD []) 0 0, st)
  | .next [] count bytes => (.finished count bytes, (deleteFolderStream didHash .inbox st).2)
  | .next (msgId :: ids) count bytes =>
    (.delete msgId (((st.messages msgId).map MessageRecord.bytes).getD 0) ids count bytes, st)
  | .delete msgId bytesBefore ids count bytes =>
    match deleteMessage msgId (.owner didHash) st with
    | (.ok _, st) => (.next ids (count + 1) (bytes + bytesBefore), st)
    | (.error _, st) => (.next ids count bytes, st)
  | .finished count bytes => (.finished count bytes, st)

/-- The store with a purge under way. -/
structure PurgeWorld where
  pc : PurgePc
  store : MemoryState

/-- A turn: the purge's next lock section, or another request's `store_message` for the recipient. -/
inductive PurgeTurn
  | purge
  | store (nowMs : ℕ) (message : String) (fromHash : Option String) (expiresAt : ℕ)

section

variable (digest : String → String) (didHash : String)

def PurgeWorld.turn (w : PurgeWorld) : PurgeTurn → PurgeWorld
  | .purge => ⟨(w.pc.step didHash w.store).1, (w.pc.step didHash w.store).2⟩
  | .store nowMs message fromHash expiresAt =>
    { w with store := (storeMessage digest nowMs message didHash fromHash expiresAt w.store).2 }

def runTurns (w : PurgeWorld) : List PurgeTurn → PurgeWorld
  | [] => w
  | t :: ts => runTurns (w.turn digest didHash t) ts

/-- The purge has listed the inbox and not dropped it yet. -/
def PurgePc.Busy : PurgePc → Prop
  | .next .. => True
  | .delete .. => True
  | _ => False

/-- The ids still to be deleted. -/
def PurgePc.remaining : PurgePc → List String
  | .next ids _ _ => ids
  | .delete msgId _ ids _ _ => msgId :: ids
  | _ => []

/-- The bodies are fresh when they are stored, and the counters have room for them. -/
def ProperTurns (w : PurgeWorld) : List PurgeTurn → Prop
  | [] => True
  | .purge :: ts => ProperTurns (w.turn digest didHash .purge) ts
  | .store nowMs message fromHash expiresAt :: ts =>
    (∀ m r, w.store.messages m = some r → r.body ≠ message) ∧
    (w.turn digest didHash (.store nowMs message fromHash expiresAt)).store.WithinCaps ∧
    ProperTurns (w.turn digest didHash (.store nowMs message fromHash expiresAt)) ts

/-- Nothing is stored while the purge is busy. -/
def QuietTurns (w : PurgeWorld) : List PurgeTurn → Prop
  | [] => True
  | .purge :: ts => QuietTurns (w.turn digest didHash .purge) ts
  | .store nowMs message fromHash expiresAt :: ts =>
    ¬w.pc.Busy ∧ QuietTurns (w.turn digest didHash (.store nowMs message fromHash expiresAt)) ts

end

/-- Every stored message of the recipient is listed, and the counter counts what is listed. -/
structure Settled (didHash : String) (st : MemoryState) : Prop where
  listed : ∀ m r, st.messages m = some r → r.toDidHash = didHash → ∃ e ∈ (st.inboxOf didHash).entries, e.2.msgId = m
  counted : (st.account didHash).receiveQueueCount = (st.inboxOf didHash).length

theorem InboxKept.settled {digest : String → String} {st : MemoryState} (h : InboxKept digest st)
    (didHash : String) :
    Settled didHash st := by
  refine ⟨?_, ?_⟩
  · rintro m r hm rfl
    exact ⟨_, h.inbox.mem hm rfl, rfl⟩
  · exact (Prod.ext_iff.1 (h.receiveQueue didHash)).1

theorem purgeLoop_alone (digest : String → String) (didHash : String) (ids : List String) (count bytes : ℕ)
    (st : MemoryState) : ∃ n, runTurns digest didHash ⟨.next ids count bytes, st⟩ (List.replicate n .purge) =
    ⟨.finished (count + (purgeLoop didHash ids st).1.1) (bytes + (purgeLoop didHash ids st).1.2),
    (deleteFolderStream didHash .inbox (purgeLoop didHash ids st).2).2⟩ := by
  induction ids generalizing count bytes st with
  | nil => exact ⟨1, rfl⟩
  | cons msgId ids ih =>
    cases hdelete : deleteMessage msgId (.owner didHash) st with
    | mk outcome st' =>
      cases outcome with
      | ok value =>
        obtain ⟨n, hn⟩ := ih (count + 1) (bytes + ((st.messages msgId).map MessageRecord.bytes).getD 0) st'
        refine ⟨n + 2, ?_⟩
        simp only [replicate_succ, runTurns, PurgeWorld.turn, PurgePc.step, hdelete, purgeLoop]
        rw [hn, PurgeWorld.mk.injEq, PurgePc.finished.injEq]
        exact ⟨⟨Nat.add_right_comm _ _ _, (Nat.add_right_comm _ _ _).trans (Nat.add_assoc _ _ _)⟩, rfl⟩
      | error e =>
        obtain ⟨n, hn⟩ := ih count bytes st'
        refine ⟨n + 2, ?_⟩
        simp only [replicate_succ, runTurns, PurgeWorld.turn, PurgePc.step, hdelete, purgeLoop]
        exact hn

/-- A purge nobody disturbs is the atomic one. -/
theorem purge_alone (digest : String → String) (didHash : String) (st : MemoryState) :
    ∃ n count bytes, runTurns digest didHash ⟨.start, st⟩ (List.replicate n .purge) =
        ⟨.finished count bytes, (purgeFolder didHash .inbox st).2⟩ ∧
      (purgeFolder didHash .inbox st).1 = .ok (count, bytes) := by
  obtain ⟨n, hn⟩ := purgeLoop_alone digest didHash
    (((folderStream .inbox st didHash).map fun s => s.values.map StreamEntry.msgId).getD []) 0 0 st
  refine ⟨n + 1, _, _, hn, ?_⟩
  simp only [purgeFolder, Nat.zero_add]

/-! ## Phases of a run -/

/-- Between the list and the drop: what is listed for deletion is stored, and what came later, the
ids in `late`, is stored too and will not be deleted. -/
structure Purging (digest : String → String) (didHash : String) (late : List String) (w : PurgeWorld) : Prop where
  kept : InboxKept digest w.store
  busy : w.pc.Busy
  nodup : w.pc.remaining.Nodup
  stored : ∀ m ∈ w.pc.remaining, ∃ r, w.store.messages m = some r ∧ r.toDidHash = didHash
  covers : ∀ e ∈ (w.store.inboxOf didHash).entries, e.2.msgId ∈ w.pc.remaining ∨ e.2.msgId ∈ late
  late_stored : ∀ m ∈ late, m ∉ w.pc.remaining ∧ ∃ r, w.store.messages m = some r ∧ r.toDidHash = didHash

/-- Some message of the recipient is stored and not listed. -/
def Lost (digest : String → String) (didHash : String) (st : MemoryState) : Prop :=
  ∃ r, st.messages (digest r.body) = some r ∧ r.toDidHash = didHash ∧
    ∀ e ∈ (st.inboxOf didHash).entries, e.2.msgId ≠ digest r.body

theorem Lost.not_settled {digest : String → String} {didHash : String} {st : MemoryState}
    (h : Lost digest didHash st) : ¬Settled didHash st := by
  obtain ⟨r, hm, hto, hnone⟩ := h
  intro hsettled
  obtain ⟨e, he, heq⟩ := hsettled.listed _ r hm hto
  exact hnone e he heq

section

variable {digest : String → String} {didHash : String} {w : PurgeWorld}

theorem deleteMessage_other {messageHash m : String} (hne : m ≠ messageHash) (authority : DeletionAuthority)
    (st : MemoryState) : (deleteMessage messageHash authority st).2.messages m = st.messages m := by
  unfold deleteMessage
  split
  · rfl
  · split
    · rfl
    · rw [removeMessage_messages, update_of_ne hne]

theorem InboxKept.fresh (hdigest : Function.Injective digest) {st : MemoryState} (h : InboxKept digest st)
    {message : String} (hfresh : ∀ m r, st.messages m = some r → r.body ≠ message) :
    st.messages (digest message) = none := by
  cases hm : st.messages (digest message) with
  | none => rfl
  | some r => exact absurd (hdigest (h.named hm)).symm (hfresh _ r hm)

theorem InboxKept.after_store (hdigest : Function.Injective digest) (h : InboxKept digest w.store) {nowMs : ℕ}
    {message : String} {fromHash : Option String} {expiresAt : ℕ}
    (hfresh : ∀ m r, w.store.messages m = some r → r.body ≠ message)
    (hcaps : (w.turn digest didHash (.store nowMs message fromHash expiresAt)).store.WithinCaps) :
    InboxKept digest (w.turn digest didHash (.store nowMs message fromHash expiresAt)).store := by
  have hstores := storeMessage_stores digest nowMs message didHash fromHash expiresAt w.store
  refine InboxKept.store (r := storedRecord nowMs message didHash fromHash expiresAt w.store) h hstores
    (h.fresh hdigest hfresh) hcaps ?_
  simp [storedRecord]

theorem InboxKept.before_removal {st : MemoryState} (h : InboxKept digest st) (acls : MediatorACLSet) :
    InboxKept digest (deleteFolderStream didHash .outbox (setDidAcl didHash acls st).2).2 := by
  refine ⟨h.inbox, ?_, h.sent, h.inbox_le, h.named⟩
  intro did
  have hqueue : ((st.upsertAccount didHash fun record => { record with acls }).account did).queues.1 =
      (st.account did).queues.1 := by
    simp only [MemoryState.account, upsertAccount_accounts]
    by_cases hdid : did = didHash
    · subst hdid
      simp [AccountRecord.queues]
    · simp [hdid]
  exact hqueue.trans (h.receiveQueue did)

theorem Purging.of_start (h : InboxKept digest w.store) (hpc : w.pc = .start) :
    Purging digest didHash [] (w.turn digest didHash .purge) := by
  obtain ⟨pc, st⟩ := w
  simp only at hpc h
  subst hpc
  have hids : ((folderStream .inbox st didHash).map fun s => s.values.map StreamEntry.msgId).getD [] =
      (st.inboxOf didHash).entries.map fun e => e.2.msgId := by
    unfold folderStream MemoryState.inboxOf
    cases st.inbox didHash with
    | none => rfl
    | some stream => simp [OrdMap.values]
  have hstored : ∀ e ∈ (st.inboxOf didHash).entries,
      ∃ r, st.messages e.2.msgId = some r ∧ r.toDidHash = didHash ∧ r.receiveId = e.1 := by
    rintro ⟨sid, e⟩ he
    obtain ⟨m, r, hm, hplace, rfl⟩ := (h.inbox didHash sid e).1 he
    obtain ⟨hto, hid⟩ := Prod.mk.inj (Option.some.inj hplace)
    exact ⟨r, hm, hto, hid⟩
  simp only [PurgeWorld.turn, PurgePc.step, hids]
  constructor
  · exact h
  · trivial
  · -- two entries of one message would be one entry
    refine pairwise_map.2 ((st.inboxOf didHash).sorted.imp_of_mem ?_)
    intro a b ha hb hlt heq
    obtain ⟨ra, hra, -, hida⟩ := hstored a ha
    obtain ⟨rb, hrb, -, hidb⟩ := hstored b hb
    obtain rfl : ra = rb := Option.some.inj (hra.symm.trans (heq ▸ hrb))
    exact hlt.ne (hida.symm.trans hidb)
  · intro m hm
    obtain ⟨e, he, rfl⟩ := mem_map.1 hm
    obtain ⟨r, hr, hto, -⟩ := hstored e he
    exact ⟨r, hr, hto⟩
  · exact fun e he => .inl (mem_map_of_mem he)
  · simp

theorem Purging.delete {late : List String} {msgId : String} {bytesBefore count bytes : ℕ} {ids : List String}
    (h : Purging digest didHash late w) (hpc : w.pc = .delete msgId bytesBefore ids count bytes) :
    Purging digest didHash late (w.turn digest didHash .purge) := by
  obtain ⟨pc, st⟩ := w
  simp only at hpc
  subst hpc
  obtain ⟨hkept, -, hnodup, hstored, hcovers, hlate⟩ := h
  simp only [PurgePc.remaining] at hnodup hstored hcovers hlate
  obtain ⟨hnotMem, hnodup⟩ := nodup_cons.1 hnodup
  have hafter : ∃ count' bytes',
    (PurgeWorld.mk (.delete msgId bytesBefore ids count bytes) st).turn digest didHash .purge =
      ⟨.next ids count' bytes', (deleteMessage msgId (.owner didHash) st).2⟩ := by
    simp only [PurgeWorld.turn, PurgePc.step]
    cases hdelete : deleteMessage msgId (.owner didHash) st with
    | mk outcome st' => cases outcome <;> exact ⟨_, _, rfl⟩
  obtain ⟨count', bytes', hafter⟩ := hafter
  have hkept' := hkept.delete msgId (.owner didHash)
  rw [hafter]
  refine ⟨hkept', trivial, hnodup, ?_, ?_, ?_⟩
  · intro m hm
    have hne : m ≠ msgId := fun heq => hnotMem (heq ▸ hm)
    simp only [deleteMessage_other hne]
    exact hstored m (mem_cons_of_mem _ hm)
  · rintro ⟨sid, e⟩ he
    obtain ⟨m, r, hm, hplace, rfl⟩ := (hkept'.inbox didHash sid e).1 he
    obtain ⟨hold, hrefused⟩ := deleteMessage_messages hm
    have hmem : (sid, r.inboxEntry m) ∈ (st.inboxOf didHash).entries := hkept.inbox.mem hold hplace
    have hne : m ≠ msgId := by
      intro heq
      obtain ⟨hto, -⟩ := Prod.mk.inj (Option.some.inj hplace)
      have hfalse := hrefused heq
      simp [deleteMessagePermitted, hto] at hfalse
    rcases hcovers _ hmem with hin | hin
    · exact .inl ((mem_cons.1 hin).resolve_left hne)
    · exact .inr hin
  · intro m hm
    obtain ⟨hnot, r, hr, hto⟩ := hlate m hm
    have hne : m ≠ msgId := fun heq => hnot (heq ▸ mem_cons_self)
    refine ⟨fun hin => hnot (mem_cons_of_mem _ hin), r, ?_, hto⟩
    simp only [deleteMessage_other hne]
    exact hr

theorem Purging.lookup {late : List String} {msgId : String} {ids : List String} {count bytes : ℕ}
    (h : Purging digest didHash late w) (hpc : w.pc = .next (msgId :: ids) count bytes) :
    Purging digest didHash late (w.turn digest didHash .purge) := by
  obtain ⟨pc, st⟩ := w
  simp only at hpc
  subst hpc
  exact ⟨h.kept, trivial, h.nodup, h.stored, h.covers, h.late_stored⟩

/-- Dropping the stream: nothing is left in it, or what came late is. -/
theorem Purging.drop {late : List String} {count bytes : ℕ} (h : Purging digest didHash late w)
    (hpc : w.pc = .next [] count bytes) :
    (w.turn digest didHash .purge).pc = .finished count bytes ∧
      (late = [] → InboxKept digest (w.turn digest didHash .purge).store) ∧
      (late ≠ [] → Lost digest didHash (w.turn digest didHash .purge).store) := by
  obtain ⟨pc, st⟩ := w
  simp only at hpc
  subst hpc
  have hinbox : ({ st with inbox := update st.inbox didHash none } : MemoryState).inboxOf =
      update st.inboxOf didHash .empty := by
    funext did
    by_cases hdid : did = didHash
    · subst hdid
      simp [MemoryState.inboxOf]
    · simp [MemoryState.inboxOf, hdid]
  refine ⟨rfl, ?_, ?_⟩
  · rintro rfl
    have hempty : (st.inboxOf didHash).entries = [] := by
      refine eq_nil_iff_forall_not_mem.2 fun e he => ?_
      rcases h.covers e he with hin | hin <;> cases hin
    have hsame : ({ st with inbox := update st.inbox didHash none } : MemoryState).inboxOf =
      st.inboxOf := by
      rw [hinbox, update_eq_self_iff]
      cases hstream : st.inboxOf didHash with
      | mk entries sorted =>
        rw [hstream] at hempty
        simp only at hempty
        subst hempty
        rfl
    obtain ⟨hindex, hqueue, hsent, hle, hnamed⟩ := h.kept
    rw [← hsame] at hindex hqueue hle
    exact ⟨hindex, hqueue, hsent, hle, hnamed⟩
  · intro hlate
    obtain ⟨m, hm⟩ := exists_mem_of_ne_nil late hlate
    obtain ⟨-, r, hr, hto⟩ := h.late_stored m hm
    obtain rfl := h.kept.named hr
    refine ⟨r, hr, hto, ?_⟩
    intro e he
    change e ∈ (({ st with inbox := update st.inbox didHash none } :
      MemoryState).inboxOf didHash).entries at he
    rw [hinbox, update_self] at he
    cases he

theorem Purging.store (hdigest : Function.Injective digest) {late : List String} (h : Purging digest didHash late w)
    {nowMs : ℕ} {message : String} {fromHash : Option String} {expiresAt : ℕ}
    (hfresh : ∀ m r, w.store.messages m = some r → r.body ≠ message)
    (hcaps : (w.turn digest didHash (.store nowMs message fromHash expiresAt)).store.WithinCaps) :
    Purging digest didHash (digest message :: late)
      (w.turn digest didHash (.store nowMs message fromHash expiresAt)) := by
  obtain ⟨pc, st⟩ := w
  have hnone : st.messages (digest message) = none := h.kept.fresh hdigest hfresh
  have hstores := storeMessage_stores digest nowMs message didHash fromHash expiresAt st
  have hold : ∀ {m r}, st.messages m = some r →
      (storeMessage digest nowMs message didHash fromHash expiresAt st).2.messages m = some r := by
    intro m r hm
    have hne : m ≠ digest message := by
      rintro rfl
      exact absurd (hnone.symm.trans hm) (by simp)
    rw [hstores.messages, update_of_ne hne]
    exact hm
  constructor
  · exact h.kept.after_store hdigest hfresh hcaps
  · exact h.busy
  · exact h.nodup
  · intro m hm
    obtain ⟨r, hr, hto⟩ := h.stored m hm
    exact ⟨r, hold hr, hto⟩
  · intro e he
    change e ∈ ((storeMessage digest nowMs message didHash fromHash expiresAt st).2.inboxOf didHash).entries at he
    have hto : (storedRecord nowMs message didHash fromHash expiresAt st).toDidHash = didHash := rfl
    rw [hstores.inboxOf, hto, update_self] at he
    rcases OrdMap.mem_insert.1 he with rfl | ⟨he, -⟩
    · exact .inr mem_cons_self
    · exact (h.covers e he).imp_right (mem_cons_of_mem _)
  · intro m hm
    rcases mem_cons.1 hm with rfl | hm
    · refine ⟨fun hin => ?_, storedRecord nowMs message didHash fromHash expiresAt st, ?_, rfl⟩
      · obtain ⟨r, hr, -⟩ := h.stored _ hin
        exact absurd (hnone.symm.trans hr) (by simp)
      · change (storeMessage digest nowMs message didHash fromHash expiresAt st).2.messages (digest message) = _
        rw [hstores.messages, update_self]
    · obtain ⟨hnot, r, hr, hto⟩ := h.late_stored m hm
      exact ⟨hnot, r, hold hr, hto⟩

/-! ## Runs -/

theorem runTurns_after_finish {count bytes : ℕ} (turns : List PurgeTurn) (hpc : w.pc = .finished count bytes) :
    QuietTurns digest didHash w turns := by
  induction turns generalizing w with
  | nil => trivial
  | cons t turns ih =>
    obtain ⟨pc, st⟩ := w
    simp only at hpc
    subst hpc
    cases t with
    | purge => exact ih rfl
    | store nowMs message fromHash expiresAt => exact ⟨id, ih rfl⟩

/-- After the purge there are only stores. -/
theorem after_finish {P : MemoryState → Prop} (hstore : ∀ {nowMs message fromHash expiresAt st}, P st →
      (∀ m r, st.messages m = some r → r.body ≠ message) →
      (storeMessage digest nowMs message didHash fromHash expiresAt st).2.WithinCaps →
      P (storeMessage digest nowMs message didHash fromHash expiresAt st).2)
    {count bytes : ℕ} {turns : List PurgeTurn} (h : P w.store) (hpc : w.pc = .finished count bytes)
    (hproper : ProperTurns digest didHash w turns) : P (runTurns digest didHash w turns).store := by
  induction turns generalizing w with
  | nil => exact h
  | cons t turns ih =>
    obtain ⟨pc, st⟩ := w
    simp only at hpc
    subst hpc
    cases t with
    | purge => exact ih (w := ⟨.finished count bytes, st⟩) h rfl hproper
    | store nowMs message fromHash expiresAt =>
      obtain ⟨hfresh, hcaps, hproper⟩ := hproper
      exact ih (hstore h hfresh hcaps) rfl hproper

/-- What is lost stays so: no later body has its id. -/
theorem Lost.after_store (hdigest : Function.Injective digest) {nowMs : ℕ} {message : String}
    {fromHash : Option String} {expiresAt : ℕ} {st : MemoryState} (h : Lost digest didHash st)
    (hfresh : ∀ m r, st.messages m = some r → r.body ≠ message) :
    Lost digest didHash (storeMessage digest nowMs message didHash fromHash expiresAt st).2 := by
  obtain ⟨r, hr, hto, hnone⟩ := h
  have hne : digest r.body ≠ digest message := fun heq => hfresh _ r hr (hdigest heq)
  have hstores := storeMessage_stores digest nowMs message didHash fromHash expiresAt st
  refine ⟨r, ?_, hto, ?_⟩
  · rw [hstores.messages, update_of_ne hne]
    exact hr
  · intro e he
    have hto : (storedRecord nowMs message didHash fromHash expiresAt st).toDidHash = didHash := rfl
    rw [hstores.inboxOf, hto, update_self] at he
    rcases OrdMap.mem_insert.1 he with rfl | ⟨he, -⟩
    · exact hne.symm
    · exact hnone e he

/-- From the window on: what came late is lost, and if nothing did, what matters is whether
something still comes. -/
theorem Purging.run (hdigest : Function.Injective digest) {late : List String} {turns : List PurgeTurn}
    (h : Purging digest didHash late w) (hproper : ProperTurns digest didHash w turns) {count bytes : ℕ}
    (hend : (runTurns digest didHash w turns).pc = .finished count bytes) :
    (late ≠ [] → Lost digest didHash (runTurns digest didHash w turns).store) ∧
    (late = [] → (Settled didHash (runTurns digest didHash w turns).store ↔ QuietTurns digest didHash w turns)) := by
  induction turns generalizing w late with
  | nil =>
    have hbusy := h.busy
    rw [show w.pc = .finished count bytes from hend] at hbusy
    exact hbusy.elim
  | cons t turns ih =>
    cases t with
    | store nowMs message fromHash expiresAt =>
      obtain ⟨hfresh, hcaps, hproper⟩ := hproper
      obtain ⟨hlost, -⟩ := ih (h.store hdigest hfresh hcaps) hproper hend
      have hlost := hlost (cons_ne_nil _ _)
      refine ⟨fun _ => hlost, fun _ => ?_⟩
      constructor
      · exact fun hsettled => absurd hsettled hlost.not_settled
      · exact fun hquiet => absurd h.busy hquiet.1
    | purge =>
      cases hpc : w.pc with
      | start | finished c b => exact (hpc ▸ h.busy).elim
      | delete msgId bytesBefore ids c b => exact ih (h.delete hpc) hproper hend
      | next ids c b =>
        cases ids with
        | cons msgId ids => exact ih (h.lookup hpc) hproper hend
        | nil =>
          obtain ⟨hfinished, hkept, hlost⟩ := h.drop hpc
          refine ⟨fun hlate => ?_, fun hlate => ?_⟩
          · have hrest := after_finish (P := Lost digest didHash) (fun h hfresh _ => h.after_store hdigest hfresh)
              (hlost hlate) hfinished hproper
            exact hrest
          constructor
          · exact fun _ => runTurns_after_finish turns hfinished
          · have hrest := after_finish (fun h => InboxKept.after_store (w := ⟨.start, _⟩) hdigest h) (hkept hlate)
              hfinished hproper
            exact fun _ => hrest.settled didHash

/-- Every message of the recipient that is still stored is listed, and the counter is right, when
nothing was stored between the list and the drop, and only then. -/
theorem purge_settled_iff_quiet (hdigest : Function.Injective digest) {st : MemoryState}
    (hkept : InboxKept digest st)
    {turns : List PurgeTurn} (hproper : ProperTurns digest didHash ⟨.start, st⟩ turns) {count bytes : ℕ}
    (hend : (runTurns digest didHash ⟨.start, st⟩ turns).pc = .finished count bytes) :
    Settled didHash (runTurns digest didHash ⟨.start, st⟩ turns).store ↔
      QuietTurns digest didHash ⟨.start, st⟩ turns := by
  induction turns generalizing st with
  | nil => cases hend
  | cons t turns ih =>
    cases t with
    | purge => exact ((Purging.of_start (w := ⟨.start, st⟩) hkept rfl).run hdigest hproper hend).2 rfl
    | store nowMs message fromHash expiresAt =>
      obtain ⟨hfresh, hcaps, hproper⟩ := hproper
      have hrest := ih (InboxKept.after_store (w := ⟨.start, st⟩) hdigest hkept hfresh hcaps) hproper hend
      rw [show (QuietTurns digest didHash ⟨.start, st⟩ (.store nowMs message fromHash expiresAt :: turns) ↔
        QuietTurns digest didHash _ turns) from ⟨And.right, fun hquiet => ⟨id, hquiet⟩⟩]
      exact hrest

end

theorem withinCaps_of_empty {w : PurgeWorld} {nowMs expiresAt : ℕ} {message : String} {fromHash : Option String}
    (hempty : ∀ m, w.store.messages m = none) (hbytes : message.utf8ByteSize < 2 ^ 64) :
    (w.turn id "bob" (.store nowMs message fromHash expiresAt)).store.WithinCaps := by
  have hstores := storeMessage_stores id nowMs message "bob" fromHash expiresAt w.store
  refine ⟨{message}, ?_, by simp, ?_⟩
  · intro m
    rw [Finset.mem_singleton, PurgeWorld.turn, hstores.messages, update_apply]
    by_cases hm : m = message <;> simp [hm, hempty]
  · rw [Finset.sum_singleton, MemoryState.bytesOf, PurgeWorld.turn, hstores.messages]
    simpa [storedRecord] using hbytes

theorem turn_purge_messages (digest : String → String) {didHash m : String} {w : PurgeWorld} {r : MessageRecord}
    (hm : (w.turn digest didHash .purge).store.messages m = some r) : w.store.messages m = some r := by
  obtain ⟨pc, st⟩ := w
  cases pc with
  | start => exact hm
  | finished count bytes => exact hm
  | next ids count bytes => cases ids <;> exact hm
  | delete msgId bytesBefore ids count bytes =>
    refine (@deleteMessage_messages _ _ msgId (.owner didHash) _ ?_).1
    simp only [PurgeWorld.turn, PurgePc.step] at hm
    cases hdelete : deleteMessage msgId (.owner didHash) st with
    | mk outcome after => cases outcome <;> simpa [hdelete] using hm

/-- Where the removal of an account without messages starts to purge. -/
def blockedBob : MemoryState :=
  (deleteFolderStream "bob" .outbox (setDidAcl "bob" ((default : MediatorACLSet).setBlocked true) default).2).2

/-- Bob's inbox holds one message when the purge lists it, and none when it drops the stream. -/
def purgedBob : PurgeWorld :=
  runTurns id "bob" ⟨.start, blockedBob⟩ [.store 0 "hi" (some "alice") 60, .purge, .purge, .purge, .purge]

theorem purgedBob_empty (m : String) : purgedBob.store.messages m = none := by
  by_cases hm : m = "hi"
  · subst hm
    decide +kernel
  · cases hfound : purgedBob.store.messages m with
    | none => rfl
    | some r =>
      have hstored : (storeMessage id 0 "hi" "bob" (some "alice") 60 blockedBob).2.messages m = some r :=
        turn_purge_messages id (turn_purge_messages id (turn_purge_messages id (turn_purge_messages id hfound)))
      rw [(storeMessage_stores id 0 "hi" "bob" (some "alice") 60 blockedBob).messages,
        update_of_ne (show m ≠ id "hi" from hm)] at hstored
      cases hstored

/-- What the purge lists is deleted, and a message stored after the drop is there to be fetched. -/
theorem purge_then_store_settled :
    let after := runTurns id "bob" ⟨.start, blockedBob⟩
      [.store 0 "hi" (some "alice") 60, .purge, .purge, .purge, .purge, .store 1 "hello" (some "alice") 60]
    Settled "bob" after.store ∧ after.pc = .finished 1 2 ∧ (after.store.messages "hello").isSome := by
  intro after
  have hkept : InboxKept id blockedBob := (kept_default id).inboxes.before_removal _
  have hproper : ProperTurns id "bob" ⟨.start, blockedBob⟩
      [.store 0 "hi" (some "alice") 60, .purge, .purge, .purge, .purge, .store 1 "hello" (some "alice") 60] := by
    simp only [ProperTurns, and_true]
    refine ⟨?_, withinCaps_of_empty (fun _ => rfl) (by decide), ?_, withinCaps_of_empty purgedBob_empty (by decide)⟩
    · rintro m r ⟨⟩
    · intro m r hm
      cases (purgedBob_empty m).symm.trans hm
  have hquiet : QuietTurns id "bob" ⟨.start, blockedBob⟩
      [.store 0 "hi" (some "alice") 60, .purge, .purge, .purge, .purge, .store 1 "hello" (some "alice") 60] := by
    have hdropped : purgedBob.pc = .finished 1 2 := by decide +kernel
    simp only [QuietTurns, and_true]
    refine ⟨fun hbusy => hbusy, fun hbusy => ?_⟩
    change purgedBob.pc.Busy at hbusy
    rw [hdropped] at hbusy
    exact hbusy
  have hend : after.pc = .finished 1 2 ∧ (after.store.messages "hello").isSome := by decide +kernel
  exact ⟨(purge_settled_iff_quiet injective_id hkept hproper hend.1).2 hquiet, hend⟩

/-- Stored between the list and the drop, it is counted and stored and in no inbox. -/
theorem purge_loses_late_store :
    let after := runTurns id "bob" ⟨.start, default⟩ [.purge, .store 1 "hello" (some "alice") 60, .purge]
    after.pc = .finished 0 0 ∧ ((after.store.messages "hello").map MessageRecord.toDidHash = some "bob") ∧
      (after.store.inboxOf "bob").entries = [] ∧ (after.store.account "bob").receiveQueueCount = 1 ∧
      ¬Settled "bob" after.store := by
  intro after
  have hrun : after.pc = .finished 0 0 ∧ (after.store.messages "hello").map MessageRecord.toDidHash = some "bob" ∧
      (after.store.inboxOf "bob").entries = [] ∧ (after.store.account "bob").receiveQueueCount = 1 := by
    decide +kernel
  obtain ⟨hpc, hstored, hempty, hcount⟩ := hrun
  refine ⟨hpc, hstored, hempty, hcount, ?_⟩
  intro hsettled
  have hcounted := hsettled.counted
  rw [hcount, OrdMap.length, hempty] at hcounted
  cases hcounted

end AffinidiTdk.Store
