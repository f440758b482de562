/-
The sweep of expired messages, said of both in-process stores at once: the records, what the expiry index says, and
the folder entries. The index is exact as long as no message is stored again with another expiry, and then a sweep
removes what has expired and nothing else.
-/
import AffinidiTdk.Store.Idempotence

namespace AffinidiTdk.Store

open Function List MemoryState
open Acl

/-! ## What a sweep promises -/

/-- What a store shows of its messages: the records, the times and ids of the expiry index, the folder entries. -/
structure MailView where
  record : String → Option MessageRecord
  indexed : ℕ → String → Prop
  inboxAt : String → StreamId → Option StreamEntry
  outboxAt : String → StreamId → Option StreamEntry

/-- The message has an expiry, and it is over. -/
def MessageRecord.Expired (record : MessageRecord) (nowSecs : ℕ) : Prop :=
  record.expiresAt ≠ 0 ∧ record.expiresAt ≤ nowSecs

/-- The expired messages are gone and the others are as they were, with their entries; the index has nothing more
that is due. Nothing is said of the entries of what has gone, nor of the older entries of a body that was stored again
under one expiry: its record names the last. -/
structure SweptExactly (nowSecs : ℕ) (before after : MailView) : Prop where
  absent : ∀ m, before.record m = none → after.record m = none
  expired : ∀ m r, before.record m = some r → r.Expired nowSecs → after.record m = none
  kept : ∀ m r, before.record m = some r → ¬ r.Expired nowSecs → after.record m = some r
  inbox : ∀ m r, before.record m = some r → ¬ r.Expired nowSecs →
    after.inboxAt r.toDidHash r.receiveId = before.inboxAt r.toDidHash r.receiveId
  outbox : ∀ m r sender sid, before.record m = some r → ¬ r.Expired nowSecs → r.fromDidHash = some sender →
    r.sendId = some sid → after.outboxAt sender sid = before.outboxAt sender sid
  index : ∀ t m, t ≤ nowSecs → ¬ after.indexed t m

/-- The index says what the records say, and no two messages have a stream id in common. -/
structure Indexed (v : MailView) : Prop where
  exact_ : ∀ t m, v.indexed t m ↔ t ≠ 0 ∧ ∃ r, v.record m = some r ∧ r.expiresAt = t
  received : ∀ m m' r r', v.record m = some r → v.record m' = some r' → m ≠ m' → r.receiveId ≠ r'.receiveId
  sent : ∀ m m' r r' sid, v.record m = some r → v.record m' = some r' → m ≠ m' → r.sendId = some sid →
    r'.sendId ≠ some sid

/-- Some messages have gone; the others have what they had, and the index is exact again. -/
structure Purges (gone : String → Prop) (v v' : MailView) : Prop where
  gone_ : ∀ m, gone m → v'.record m = none
  kept : ∀ m, ¬ gone m → v'.record m = v.record m
  inbox : ∀ m r, ¬ gone m → v.record m = some r → v'.inboxAt r.toDidHash r.receiveId =
    v.inboxAt r.toDidHash r.receiveId
  outbox : ∀ m r sender sid, ¬ gone m → v.record m = some r → r.fromDidHash = some sender → r.sendId = some sid →
    v'.outboxAt sender sid = v.outboxAt sender sid
  indexed : Indexed v'

variable {v : MailView}

theorem Purges.refl (h : Indexed v) : Purges (fun _ => False) v v :=
  ⟨fun _ hgone => hgone.elim, fun _ _ => rfl, fun _ _ _ _ => rfl, fun _ _ _ _ _ _ _ _ => rfl, h⟩

variable {m : String}

theorem Purges.absent (h : Indexed v) (hm : v.record m = none) : Purges (· = m) v v :=
  ⟨fun _ hgone => hgone ▸ hm, fun _ _ => rfl, fun _ _ _ _ => rfl, fun _ _ _ _ _ _ _ _ => rfl, h⟩

theorem Purges.trans {gone gone' : String → Prop} {v v' v'' : MailView} (h : Purges gone v v')
    (h' : Purges gone' v' v'') :
    Purges (fun m => gone m ∨ gone' m) v v'' where
  gone_ := fun m hm => by
    by_cases hgone' : gone' m
    · exact h'.gone_ m hgone'
    · rw [h'.kept m hgone']
      exact h.gone_ m (hm.resolve_right hgone')
  kept := fun m hm => by
    rw [h'.kept m fun hg => hm (.inr hg), h.kept m fun hg => hm (.inl hg)]
  inbox := fun m r hm hr => by
    have hr' := (h.kept m fun hg => hm (.inl hg)).trans hr
    rw [h'.inbox m r (fun hg => hm (.inr hg)) hr', h.inbox m r (fun hg => hm (.inl hg)) hr]
  outbox := fun m r sender sid hm hr hfrom hsid => by
    have hr' := (h.kept m fun hg => hm (.inl hg)).trans hr
    rw [h'.outbox m r sender sid (fun hg => hm (.inr hg)) hr' hfrom hsid,
      h.outbox m r sender sid (fun hg => hm (.inl hg)) hr hfrom hsid]
  indexed := h'.indexed

variable {gone : String → Prop} {v' : MailView}

theorem Purges.congr {gone' : String → Prop} (h : Purges gone v v') (hgone : ∀ m, gone m ↔ gone' m) :
    Purges gone' v v' := by
  obtain rfl : gone = gone' := funext fun m => propext (hgone m)
  exact h

theorem Purges.sweptExactly {nowSecs : ℕ} (h : Indexed v) (hp : Purges gone v v')
    (hgone : ∀ m, gone m ↔ ∃ t, t ≤ nowSecs ∧ v.indexed t m) : SweptExactly nowSecs v v' := by
  have hexpired : ∀ m r, v.record m = some r → (gone m ↔ r.Expired nowSecs) := by
    intro m r hr
    rw [hgone]
    constructor
    · rintro ⟨t, ht, hindexed⟩
      obtain ⟨hzero, r', hr', rfl⟩ := (h.exact_ t m).1 hindexed
      cases hr.symm.trans hr'
      exact ⟨hzero, ht⟩
    · rintro ⟨hzero, hle⟩
      exact ⟨r.expiresAt, hle, (h.exact_ _ m).2 ⟨hzero, r, hr, rfl⟩⟩
  refine ⟨fun m hm => ?_, fun m r hr he => hp.gone_ m ((hexpired m r hr).2 he), fun m r hr he => ?_,
    fun m r hr he => ?_, fun m r sender sid hr he hfrom hsid => ?_, fun t m ht hindexed => ?_⟩
  · by_cases hg : gone m
    · exact hp.gone_ m hg
    · rw [hp.kept m hg, hm]
  · rw [hp.kept m fun hg => he ((hexpired m r hr).1 hg), hr]
  · exact hp.inbox m r (fun hg => he ((hexpired m r hr).1 hg)) hr
  · exact hp.outbox m r sender sid (fun hg => he ((hexpired m r hr).1 hg)) hr hfrom hsid
  · -- an entry that is still due would be that of a message that has gone
    obtain ⟨hzero, r, hr, rfl⟩ := (hp.indexed.exact_ t m).1 hindexed
    by_cases hg : gone m
    · rw [hp.gone_ m hg] at hr
      cases hr
    · rw [hp.kept m hg] at hr
      exact hg ((hexpired m r hr).2 ⟨hzero, ht⟩)

/-- What removing one message has to do to the view. -/
structure Removes (m : String) (r : MessageRecord) (v v' : MailView) : Prop where
  record : v'.record = Function.update v.record m none
  indexed : ∀ t x, v'.indexed t x ↔ v.indexed t x ∧ ¬(r.expiresAt ≠ 0 ∧ t = r.expiresAt ∧ x = m)
  inbox : ∀ x r', x ≠ m → v.record x = some r' → v'.inboxAt r'.toDidHash r'.receiveId =
    v.inboxAt r'.toDidHash r'.receiveId
  outbox : ∀ x r' sender sid, x ≠ m → v.record x = some r' → r'.fromDidHash = some sender → r'.sendId = some sid →
    v'.outboxAt sender sid = v.outboxAt sender sid

variable {r : MessageRecord}

theorem Removes.purges (h : Removes m r v v') (hv : Indexed v) (hm : v.record m = some r) :
    Purges (· = m) v v' := by
  have hkept : ∀ x r', v'.record x = some r' → x ≠ m ∧ v.record x = some r' := by
    intro x r' hx
    rw [h.record] at hx
    by_cases hxm : x = m
    · subst hxm
      rw [update_self] at hx
      cases hx
    · rw [update_of_ne hxm] at hx
      exact ⟨hxm, hx⟩
  refine ⟨fun x hx => ?_, fun x hx => ?_, h.inbox, h.outbox, ⟨fun t x => ?_, fun x x' rx rx' hx hx' => ?_,
    fun x x' rx rx' sid hx hx' => ?_⟩⟩
  · rw [h.record, hx, update_self]
  · rw [h.record, update_of_ne hx]
  · rw [h.indexed, hv.exact_]
    constructor
    · rintro ⟨⟨hzero, rx, hrx, rfl⟩, hnot⟩
      have hxm : x ≠ m := by
        rintro rfl
        cases hm.symm.trans hrx
        exact hnot ⟨hzero, rfl, rfl⟩
      exact ⟨hzero, rx, by rw [h.record, update_of_ne hxm, hrx], rfl⟩
    · rintro ⟨hzero, rx, hrx, rfl⟩
      obtain ⟨hxm, hrx⟩ := hkept x rx hrx
      exact ⟨⟨hzero, rx, hrx, rfl⟩, fun hbad => hxm hbad.2.2⟩
  · exact hv.received x x' rx rx' (hkept x rx hx).2 (hkept x' rx' hx').2
  · exact hv.sent x x' rx rx' sid (hkept x rx hx).2 (hkept x' rx' hx').2

theorem Indexed.write (h : Indexed v) (hrecord : v'.record = update v.record m (some r))
    (hindexed : ∀ t x, v'.indexed t x ↔ v.indexed t x ∨ (r.expiresAt ≠ 0 ∧ t = r.expiresAt ∧ x = m))
    (hclear : ∀ r', v.record m = some r' → r'.expiresAt ≠ 0 → r'.expiresAt = r.expiresAt)
    (hreceived : ∀ x r', v.record x = some r' → r'.receiveId ≠ r.receiveId)
    (hsent : ∀ x r' sid, v.record x = some r' → r'.sendId = some sid → r.sendId ≠ some sid) : Indexed v' := by
  have hcases : ∀ x rx, v'.record x = some rx → (x = m ∧ rx = r) ∨ (x ≠ m ∧ v.record x = some rx) := by
    intro x rx hx
    rw [hrecord] at hx
    by_cases hxm : x = m
    · subst hxm
      rw [update_self] at hx
      exact .inl ⟨rfl, (Option.some.inj hx).symm⟩
    · rw [update_of_ne hxm] at hx
      exact .inr ⟨hxm, hx⟩
  refine ⟨fun t x => ?_, fun x x' rx rx' hx hx' hne => ?_, fun x x' rx rx' sid hx hx' hne hsid hsid' => ?_⟩
  · rw [hindexed, h.exact_]
    constructor
    · rintro (⟨hzero, rx, hrx, rfl⟩ | ⟨hzero, rfl, rfl⟩)
      · by_cases hxm : x = m
        · subst hxm
          exact ⟨hzero, r, by rw [hrecord, update_self], (hclear rx hrx hzero).symm⟩
        · exact ⟨hzero, rx, by rw [hrecord, update_of_ne hxm, hrx], rfl⟩
      · exact ⟨hzero, r, by rw [hrecord, update_self], rfl⟩
    · rintro ⟨hzero, rx, hrx, rfl⟩
      rcases hcases x rx hrx with ⟨rfl, rfl⟩ | ⟨-, hold⟩
      · exact .inr ⟨hzero, rfl, rfl⟩
      · exact .inl ⟨hzero, rx, hold, rfl⟩
  · rcases hcases x rx hx with ⟨rfl, rfl⟩ | ⟨-, hold⟩
    · rcases hcases x' rx' hx' with ⟨rfl, -⟩ | ⟨-, hold'⟩
      · exact absurd rfl hne
      · exact (hreceived x' rx' hold').symm
    · rcases hcases x' rx' hx' with ⟨rfl, rfl⟩ | ⟨-, hold'⟩
      · exact hreceived x rx hold
      · exact h.received x x' rx rx' hold hold' hne
  · rcases hcases x rx hx with ⟨rfl, rfl⟩ | ⟨-, hold⟩
    · rcases hcases x' rx' hx' with ⟨rfl, -⟩ | ⟨-, hold'⟩
      · exact hne rfl
      · exact hsent x' rx' sid hold' hsid' hsid
    · rcases hcases x' rx' hx' with ⟨rfl, rfl⟩ | ⟨-, hold'⟩
      · exact hsent x rx sid hold hsid hsid'
      · exact h.sent x x' rx rx' sid hold hold' hne hsid hsid'

theorem Indexed.congr (h : Indexed v) (hrecord : v'.record = v.record)
    (hindexed : ∀ t m, v'.indexed t m ↔ v.indexed t m) : Indexed v' := by
  refine ⟨fun t m => ?_, ?_, ?_⟩
  · rw [hindexed, hrecord]
    exact h.exact_ t m
  · rw [hrecord]
    exact h.received
  · rw [hrecord]
    exact h.sent

/-! ## The in-memory store -/

def MemoryState.mail (st : MemoryState) : MailView where
  record := st.messages
  indexed := fun t m => m ∈ st.expiry t
  inboxAt := fun did sid => (st.inboxOf did).get? sid
  outboxAt := fun did sid => (st.outboxOf did).get? sid

section

variable {digest : String → String} {st st' : MemoryState}

variable {r : MessageRecord}

theorem removes_removeMessage (h : Indexed st.mail) {m : String} (hm : st.messages m = some r) :
    Removes m r st.mail (st.removeMessage m r).mail := by
  refine ⟨removeMessage_messages st m r, fun t x => mem_expiry_removeMessage st m r t x, fun x r' hx hr' => ?_,
    fun x r' sender sid hx hr' hfrom hsid => ?_⟩
  · show ((st.removeMessage m r).inboxOf r'.toDidHash).get? r'.receiveId =
      (st.inboxOf r'.toDidHash).get? r'.receiveId
    rw [inboxOf_removeMessage]
    by_cases hto : r'.toDidHash = r.toDidHash
    · rw [hto, update_self, OrdMap.get?_erase, if_neg (h.received x m r' r hr' hm hx)]
    · rw [update_of_ne hto]
  · show ((st.removeMessage m r).outboxOf sender).get? sid = (st.outboxOf sender).get? sid
    have hsame : (∀ s d, r.fromDidHash = some s → r.sendId = some d → False) →
        (st.removeMessage m r).outboxOf = st.outboxOf := by
      intro hnone
      funext did
      unfold removeMessage outboxOf
      cases hfrom' : r.fromDidHash with
      | none => simp [incrCounter, modifyAccount]
      | some s =>
        cases hsend' : r.sendId with
        | none => simp [incrCounter, modifyAccount]
        | some d => exact absurd hsend' fun heq => hnone s d hfrom' heq
    by_cases hboth : ∃ s d, r.fromDidHash = some s ∧ r.sendId = some d
    · obtain ⟨s, d, hs, hd⟩ := hboth
      rw [outboxOf_removeMessage st m r hs hd]
      by_cases hsender : sender = s
      · have hne : sid ≠ d := fun heq => h.sent x m r' r sid hr' hm hx hsid (heq ▸ hd)
        rw [hsender, update_self, OrdMap.get?_erase, if_neg hne]
      · rw [update_of_ne hsender]
    · rw [hsame fun s d hs hd => hboth ⟨s, d, hs, hd⟩]

theorem purges_remove (h : Indexed st.mail) {m : String} (hm : st.messages m = some r) :
    Purges (· = m) st.mail (st.removeMessage m r).mail := (removes_removeMessage h hm).purges h hm

theorem indexed_delete (h : Indexed st.mail) (messageHash : String) (authority : DeletionAuthority) :
    Indexed (deleteMessage messageHash authority st).2.mail := by
  unfold deleteMessage
  cases hm : st.messages messageHash with
  | none => exact h
  | some r =>
    dsimp only
    split
    · exact h
    · exact (purges_remove h hm).indexed

theorem indexed_deleteAll (h : Indexed st.mail) (deletions : List (String × DeletionAuthority)) :
    Indexed (deleteAll deletions st).mail := by
  induction deletions generalizing st with
  | nil => exact h
  | cons d deletions ih => exact ih (indexed_delete h d.1 d.2)

theorem purges_deleteAll (h : Indexed st.mail) (adminDidHash : String) (ids : List String) :
    Purges (· ∈ ids) st.mail (deleteAll (ids.map fun m => (m, .admin adminDidHash)) st).mail := by
  induction ids generalizing st with
  | nil => exact (Purges.refl h).congr fun m => by simp
  | cons id ids ih =>
    have hfirst : Purges (· = id) st.mail (deleteMessage id (.admin adminDidHash) st).2.mail := by
      unfold deleteMessage
      cases hm : st.messages id with
      | none => exact Purges.absent h hm
      | some r => exact purges_remove h hm
    exact (hfirst.trans (ih hfirst.indexed)).congr fun m => by rw [mem_cons]

theorem purges_sweepSlot (h : Indexed st.mail) (adminDidHash : String) {slot : ℕ} {ids : List String}
    (hids : ∀ m ∈ st.expiry slot, m ∈ ids) :
    Purges (· ∈ ids) st.mail { (sweepSlot adminDidHash ids st).2 with
      expiry := update (sweepSlot adminDidHash ids st).2.expiry slot ∅ }.mail := by
  rw [sweepSlot_state]
  have hpurges := purges_deleteAll h adminDidHash ids
  have hempty : ∀ m, m ∉
    (deleteAll (ids.map fun m => (m, DeletionAuthority.admin adminDidHash)) st).expiry slot := by
    intro m hm
    obtain ⟨hzero, r, hr, hslot⟩ := (hpurges.indexed.exact_ slot m).1 hm
    by_cases hgone : m ∈ ids
    · have hnone := hpurges.gone_ m hgone
      rw [hnone] at hr
      cases hr
    · have hold := (hpurges.kept m hgone).symm.trans hr
      exact hgone (hids m ((h.exact_ slot m).2 ⟨hzero, r, hold, hslot⟩))
  refine ⟨hpurges.gone_, hpurges.kept, hpurges.inbox, hpurges.outbox, hpurges.indexed.congr rfl fun t m => ?_⟩
  show m ∈ update (deleteAll (ids.map fun m => (m, DeletionAuthority.admin adminDidHash)) st).expiry slot
    (∅ : Finset String) t ↔ _
  by_cases hslot : t = slot
  · subst hslot
    exact iff_of_false (by simp) (hempty m)
  · rw [update_of_ne hslot]
    rfl

theorem purges_sweepSlots (h : Indexed st.mail) (adminDidHash : String) (due : List (ℕ × List String))
    (hdue : ∀ d ∈ due, ∀ m ∈ st.expiry d.1, m ∈ d.2) :
    Purges (fun m => ∃ d ∈ due, m ∈ d.2) st.mail (sweepSlots adminDidHash due st).2.mail := by
  induction due generalizing st with
  | nil => exact (Purges.refl h).congr fun m => by simp
  | cons d due ih =>
    obtain ⟨slot, ids⟩ := d
    have hfirst := purges_sweepSlot h adminDidHash (hdue _ mem_cons_self)
    have hrest : ∀ d ∈ due, ∀ m ∈ ({ (sweepSlot adminDidHash ids st).2 with
        expiry := update (sweepSlot adminDidHash ids st).2.expiry slot ∅ } : MemoryState).expiry d.1,
          m ∈ d.2 := by
      intro d hd m hm
      -- what is indexed after the slot was indexed before it
      obtain ⟨hzero, r, hr, hslot⟩ := (hfirst.indexed.exact_ d.1 m).1 hm
      by_cases hgone : m ∈ ids
      · rw [hfirst.gone_ m hgone] at hr
        cases hr
      · rw [hfirst.kept m hgone] at hr
        exact hdue d (mem_cons_of_mem _ hd) m ((h.exact_ d.1 m).2 ⟨hzero, r, hr, hslot⟩)
    exact (hfirst.trans (ih hfirst.indexed hrest)).congr fun m => by simp

theorem purges_sweep (h : Indexed st.mail) (nowSecs : ℕ) (adminDidHash : String) :
    Purges (fun m => ∃ t, t ≤ nowSecs ∧ st.mail.indexed t m) st.mail
      (sweepExpiredMessages nowSecs adminDidHash st).2.mail := by
  have hdue : ∀ d ∈ dueSlots nowSecs st, ∀ m ∈ st.expiry d.1, m ∈ d.2 := by
    rintro d hd m hm
    obtain ⟨slot, -, rfl⟩ := mem_map.1 hd
    exact (Finset.mem_sort _).2 hm
  refine (purges_sweepSlots h adminDidHash (dueSlots nowSecs st) hdue).congr fun m => ?_
  constructor
  · rintro ⟨d, hd, hm⟩
    obtain ⟨slot, hslot, rfl⟩ := mem_map.1 hd
    have hle := mem_range.1 (mem_of_mem_filter hslot)
    exact ⟨slot, by omega, (Finset.mem_sort _).1 hm⟩
  · rintro ⟨t, ht, hm⟩
    have hmem : m ∈ st.expiry t := hm
    refine ⟨(t, sorted (st.expiry t)), mem_map.2 ⟨t, ?_, rfl⟩, (Finset.mem_sort _).2 hmem⟩
    exact mem_filter.2 ⟨mem_range.2 (by omega), decide_eq_true ⟨m, hmem⟩⟩

/-! ## Runs of the in-memory store -/

/-- Every stored message has ids that were given out. -/
def MemoryState.GivenOut (st : MemoryState) : Prop :=
  ∀ m r, st.messages m = some r → r.receiveId ≤ st.lastId ∧ ∀ sid, r.sendId = some sid → sid ≤ st.lastId

/-- The step stores a body again, while its message is stored with another expiry. -/
def ChangesExpiry (digest : String → String) (st st' : MemoryState) : Prop :=
  ∃ nowMs message toDidHash fromHash expiresAt,
    st' = (storeMessage digest nowMs message toDidHash fromHash expiresAt st).2 ∧
    ∃ r, st.messages (digest message) = some r ∧ r.expiresAt ≠ 0 ∧ r.expiresAt ≠ expiresAt

/-- The states that are reached without such a step. -/
inductive KeepsExpiries (digest : String → String) : MemoryState → Prop
  | start : KeepsExpiries digest default
  | step {st st' : MemoryState} (h : KeepsExpiries digest st) (hstep : MemoryStep digest st st')
      (hclear : ¬ ChangesExpiry digest st st') : KeepsExpiries digest st'

/-- A body that is not stored changes no expiry. -/
theorem not_changesExpiry {digest : String → String} {st : MemoryState} {nowMs expiresAt : ℕ}
    {message toDidHash : String} {fromHash : Option String} (hfresh : st.messages (digest message) = none) :
    ¬ ChangesExpiry digest st (storeMessage digest nowMs message toDidHash fromHash expiresAt st).2 := by
  rintro ⟨nowMs', message', toDidHash', fromHash', expiresAt', hst', r, hr, -, hne⟩
  have hother : digest message' ≠ digest message := fun heq => by
    rw [heq, hfresh] at hr
    cases hr
  have hrecord := congrFun (congrArg messages hst') (digest message')
  rw [(storeMessage_stores ..).messages, (storeMessage_stores ..).messages, update_of_ne hother, update_self,
    hr] at hrecord
  cases hrecord
  exact hne rfl

theorem MemoryState.GivenOut.recede (h : st.GivenOut) (hrecedes : Recedes st st') : st'.GivenOut := fun m r hm =>
  ⟨(h m r (hrecedes.messages m r hm)).1.trans hrecedes.lastId,
    fun sid hsid => ((h m r (hrecedes.messages m r hm)).2 sid hsid).trans hrecedes.lastId⟩

/-- A call stores, or it deletes, or it is an account's removal, or it leaves the messages and the index alone. -/
theorem memoryStep_cases (h : MemoryStep digest st st') :
    (∃ call : MessageCall, st' = call.exec digest st) ∨ (∃ didHash, st' = (accountRemove didHash st).2) ∨
      st'.messages = st.messages ∧ st'.expiry = st.expiry ∧ st.lastId ≤ st'.lastId := by
  have henqueue : ∀ nowMs entry maxLen, (forwardQueueEnqueue nowMs entry maxLen st).2.messages = st.messages ∧
      (forwardQueueEnqueue nowMs entry maxLen st).2.expiry = st.expiry ∧
      st.lastId ≤ (forwardQueueEnqueue nowMs entry maxLen st).2.lastId := by
    intro nowMs entry maxLen
    obtain ⟨-, -, hexpiry, hmessages, -⟩ := allocStreamId_folders nowMs st
    exact ⟨hmessages, hexpiry, (allocStreamId_gt st nowMs).le⟩
  cases h with
  | message call => exact .inl ⟨call, rfl⟩
  | accountRemove didHash => exact .inr (.inl ⟨didHash, rfl⟩)
  | deleteFolderStream didHash folder => cases folder <;> exact .inr (.inr ⟨rfl, rfl, le_rfl⟩)
  | accountAdd didHash acls queueLimit => exact .inr (.inr ⟨rfl, rfl, le_rfl⟩)
  | setupAdminAccount didHash adminType acls =>
    unfold setupAdminAccount
    dsimp only
    split <;> exact .inr (.inr ⟨rfl, rfl, le_rfl⟩)
  | accessListAdd limit didHash hashes => exact .inr (.inr ⟨rfl, rfl, le_rfl⟩)
  | accessListRemove didHash hashes =>
    unfold accessListRemove
    split <;> exact .inr (.inr ⟨rfl, rfl, le_rfl⟩)
  | accessListClear didHash | auditLogRecord entry => exact .inr (.inr ⟨rfl, rfl, le_rfl⟩)
  | enqueue nowMs entry maxLen => exact .inr (.inr (henqueue nowMs entry maxLen))
  | queue call =>
    cases call with
    | enqueue nowMs entry => exact .inr (.inr (henqueue nowMs entry 0))
    | read now group consumer count => exact .inr (.inr ⟨rfl, rfl, le_rfl⟩)
    | ack group ids =>
      simp only [QueueCall.exec, forwardQueueAck]
      split <;> exact .inr (.inr ⟨rfl, rfl, le_rfl⟩)
    | delete ids => exact .inr (.inr ⟨rfl, rfl, le_rfl⟩)
    | autoclaim now group consumer minIdle count =>
      simp only [QueueCall.exec, forwardQueueAutoclaim]
      split <;> exact .inr (.inr ⟨rfl, rfl, le_rfl⟩)

theorem indexed_store (h : Indexed st.mail) (hgiven : st.GivenOut) (nowMs : ℕ) (message toDidHash : String)
    (fromHash : Option String) (expiresAt : ℕ)
    (hclear : ∀ r, st.messages (digest message) = some r → r.expiresAt ≠ 0 → r.expiresAt = expiresAt) :
    Indexed (storeMessage digest nowMs message toDidHash fromHash expiresAt st).2.mail ∧
      (storeMessage digest nowMs message toDidHash fromHash expiresAt st).2.GivenOut := by
  have hstores := storeMessage_stores digest nowMs message toDidHash fromHash expiresAt st
  have hlast : st.lastId ≤ (storeMessage digest nowMs message toDidHash fromHash expiresAt st).2.lastId :=
    (hstores.receiveId_gt.trans_le hstores.receiveId_le).le
  constructor
  · refine h.write hstores.messages hstores.expiry hclear (fun x r' hx heq => ?_) fun x r' sid hx hsid hsend => ?_
    · exact absurd (heq ▸ (hgiven x r' hx).1) (not_le.2 hstores.receiveId_gt)
    · have hgt := hstores.receiveId_gt.trans (hstores.sendId_gt sid hsend).1
      exact absurd ((hgiven x r' hx).2 sid hsid) (not_le.2 hgt)
  · intro m r hm
    rw [hstores.messages] at hm
    by_cases hmm : m = digest message
    · rw [hmm, update_self] at hm
      cases hm
      exact ⟨hstores.receiveId_le, fun sid hsid => (hstores.sendId_gt sid hsid).2⟩
    · rw [update_of_ne hmm] at hm
      exact ⟨(hgiven m r hm).1.trans hlast, fun sid hsid => ((hgiven m r hm).2 sid hsid).trans hlast⟩

theorem indexed_purge (h : Indexed st.mail) (didHash : String) (folder : Folder) :
    Indexed (purgeFolder didHash folder st).2.mail := by
  unfold purgeFolder
  have hdeleted := purgeLoop_state didHash
    (((folderStream folder st didHash).map fun s => s.values.map StreamEntry.msgId).getD []) st
  have hindexed := indexed_deleteAll h
    ((((folderStream folder st didHash).map fun s => s.values.map StreamEntry.msgId).getD []).map
    fun m => (m, .owner didHash))
  rw [← hdeleted] at hindexed
  cases folder <;> exact hindexed.congr rfl fun _ _ => Iff.rfl

theorem indexed_accountRemove (h : Indexed st.mail) (hgiven : st.GivenOut) (didHash : String) :
    Indexed (accountRemove didHash st).2.mail ∧ (accountRemove didHash st).2.GivenOut := by
  unfold accountRemove
  split
  · exact ⟨h, hgiven⟩
  · exact ⟨h, hgiven⟩
  · have hdropped : Indexed (deleteFolderStream didHash .outbox
        (setDidAcl didHash ((default : MediatorACLSet).setBlocked true) st).2).2.mail :=
      h.congr rfl fun _ _ => Iff.rfl
    have hgiven' : (deleteFolderStream didHash .outbox
        (setDidAcl didHash ((default : MediatorACLSet).setBlocked true) st).2).2.GivenOut := hgiven
    have hpurged := indexed_purge hdropped didHash .inbox
    have hleft := hgiven'.recede (recedes_purge didHash .inbox _)
    exact ⟨hpurged.congr rfl fun _ _ => Iff.rfl, hleft⟩

theorem KeepsExpiries.indexed (h : KeepsExpiries digest st) : Indexed st.mail ∧ st.GivenOut := by
  induction h with
  | start =>
    refine ⟨⟨fun t m => ?_, ?_, ?_⟩, ?_⟩
    · refine iff_of_false (Finset.notMem_empty m) ?_
      rintro ⟨-, r, hr, -⟩
      cases hr
    · rintro m m' r r' hr
      cases hr
    · rintro m m' r r' sid hr
      cases hr
    · rintro m r hr
      cases hr
  | step _ hstep hclear ih =>
    obtain ⟨hindexed, hgiven⟩ := ih
    rcases memoryStep_cases hstep with ⟨call, rfl⟩ | ⟨didHash, rfl⟩ | ⟨hmessages, hexpiry, hlast⟩
    · by_cases hstore : ∃ nowMs message toDidHash fromHash expiresAt,
          call = .store nowMs message toDidHash fromHash expiresAt
      · obtain ⟨nowMs, message, toDidHash, fromHash, expiresAt, rfl⟩ := hstore
        refine indexed_store hindexed hgiven nowMs message toDidHash fromHash expiresAt fun r hr hzero => ?_
        by_contra hne
        exact hclear ⟨nowMs, message, toDidHash, fromHash, expiresAt, rfl, r, hr, hzero, hne⟩
      · refine ⟨?_, hgiven.recede (MessageCall.recedes fun _ _ _ _ _ heq => hstore ⟨_, _, _, _, _, heq⟩)⟩
        cases call with
        | store nowMs message toDidHash fromHash expiresAt => exact absurd ⟨_, _, _, _, _, rfl⟩ hstore
        | delete messageHash authority => exact indexed_delete hindexed messageHash authority
        | fetch didHash options =>
          show Indexed (fetchMessages didHash options _).2.mail
          simp only [fetchMessages]
          cases hpolicy : decide (options.deletePolicy = .optimistic) with
          | true =>
            rw [fetchLoop_state]
            exact indexed_deleteAll hindexed _
          | false =>
            rw [fetchLoop_keeps]
            exact hindexed
        | purge didHash folder => exact indexed_purge hindexed didHash folder
        | sweep nowSecs adminDidHash => exact (purges_sweep hindexed nowSecs adminDidHash).indexed
        | setAcl didHash acls | setRole didHash accountType
        | changeQueueLimits didHash sendQueueLimit receiveQueueLimit => exact hindexed.congr rfl fun _ _ => Iff.rfl
    · exact indexed_accountRemove hindexed hgiven didHash
    · refine ⟨hindexed.congr hmessages fun t m => by simp only [mail, hexpiry], ?_⟩
      exact hgiven.recede ⟨fun m r hm => hmessages ▸ hm, hlast⟩

/-- A sweep of the in-memory store is exact in every state reached without changing an expiry. -/
theorem sweep_exact (h : KeepsExpiries digest st) (nowSecs : ℕ) (adminDidHash : String) :
    SweptExactly nowSecs st.mail (sweepExpiredMessages nowSecs adminDidHash st).2.mail :=
  (purges_sweep h.indexed.1 nowSecs adminDidHash).sweptExactly h.indexed.1 fun _ => Iff.rfl

end

end AffinidiTdk.Store
