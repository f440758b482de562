/-
Redelivery of an inbox after a reconnect: a detached task that pages through the inbox and pushes
each message to the connection it was started for, next to further registrations of the DID, the
closing of connections, and whatever else is done to the store.
-/
import AffinidiTdk.Store.ConsistentRuns
import AffinidiTdk.Websocket.Streaming

namespace AffinidiTdk.Websocket

open List Option Relation
open Store

/-! ## The redelivery task -/

def redeliveryPage : ℕ := 50

def redeliveryMax : ℕ := 1000

/-- Where a redelivery stands: before a page, in the middle of one, before it takes its DID out of
`replay_in_progress`, or over. -/
inductive DrainPc
  | fetching (startId : Option StreamId) (total : ℕ)
  | sending (page : List MessageListElement) (pageLen : ℕ) (startId : Option StreamId) (total : ℕ)
  | finishing
  | finished
  deriving DecidableEq

/-- One step of `spawn_inbox_redelivery`'s task, and the message it sends. -/
def DrainPc.step (didHash : String) (store : MemoryState) (isOpen : Bool) : DrainPc → DrainPc × Option String
  | .fetching startId total =>
    match (fetchMessages didHash { (default : FetchOptions) with limit := redeliveryPage, startId } store).1 with
    | .error _ => (.finishing, none)
    | .ok page =>
      if page.success.isEmpty then (.finishing, none)
      else (.sending page.success page.success.length startId total, none)
  | .sending [] pageLen startId total =>
    if pageLen < redeliveryPage then (.finishing, none) else (.fetching startId total, none)
  | .sending (element :: page) pageLen startId total =>
    let startId := element.receiveId.or startId
    match element.msg with
    | none => (.sending page pageLen startId total, none)
    | some msg =>
      if isOpen then
        if total + 1 ≥ redeliveryMax then (.finishing, some msg)
        else (.sending page pageLen startId (total + 1), some msg)
      else (.finishing, none)
  | .finishing => (.finished, none)
  | .finished => (.finished, none)

/-- A socket's drain of its channel. -/
structure Drain where
  channel : ℕ
  pc : DrainPc

/-- A connection's end of its channel, and the messages redelivered into it. -/
structure Channel where
  isOpen : Bool
  closeSent : Bool
  sent : List String

/-- The streaming task with the store and the sockets it feeds. -/
structure Streams where
  task : StreamingTask
  store : MemoryState
  channels : List Channel
  drains : List Drain

instance : Inhabited Streams := ⟨⟨default, default, [], []⟩⟩

/-- What can happen to them. -/
inductive StreamsEvent
  | register
  | drain (k : ℕ)
  | gone (i : ℕ)
  | call (call : MessageCall)

section

variable (digest : String → String) (didHash did : String)

def Streams.apply (w : Streams) : StreamingEffect → Streams
  | .close i => { w with channels := w.channels.modify i fun c => { c with closeSent := true } }
  | .redeliver channel _ => { w with drains := w.drains ++ [⟨channel, .fetching none 0⟩] }

/-- A new connection of the DID is registered, a redelivery goes on, a connection's receiver goes, or
the store is called by another task. -/
def Streams.step (w : Streams) : StreamsEvent → Streams
  | .register =>
    let (task, effects) := handleRegistration w.task didHash did w.channels.length
    effects.foldl Streams.apply { w with task, channels := w.channels ++ [⟨true, false, []⟩] }
  | .drain k =>
    match w.drains[k]? with
    | none => w
    | some d =>
      let isOpen := ((w.channels[d.channel]?).map Channel.isOpen).getD false
      let (pc, message) := d.pc.step didHash w.store isOpen
      { w with
        task := if d.pc = .finishing then
            { w.task with replayInProgress := w.task.replayInProgress.erase didHash }
          else w.task
        channels := w.channels.modify d.channel fun c => { c with sent := c.sent ++ message.toList }
        drains := w.drains.set k { d with pc } }
  | .gone i => { w with channels := w.channels.modify i fun c => { c with isOpen := false } }
  | .call call => { w with store := call.exec digest w.store }

/-- The store's callers keep to fresh bodies and to what the counters can count. -/
def Streams.Proper (w : Streams) : StreamsEvent → Prop
  | .call call => call.Fresh w.store ∧ (call.exec digest w.store).WithinCaps
  | _ => True

def Streams.Moves (w w' : Streams) : Prop := ∃ e, w.Proper digest e ∧ w' = w.step digest didHash did e

end

/-- Every message that was among the first of the inbox then and is in it now went to the
connection. -/
def Redelivered (didHash : String) (then_ now : Streams) (channel : ℕ) : Prop :=
  ∀ x ∈ (then_.store.inboxOf didHash).entries.take redeliveryMax, x ∈ (now.store.inboxOf didHash).entries →
    ∀ r, now.store.messages x.2.msgId = some r → ∃ c, now.channels[channel]? = some c ∧ r.body ∈ c.sent

/-! ## What a redelivery has covered -/

/-- Under the cursor. -/
def Behind (startId : Option StreamId) (sid : StreamId) : Prop := ∃ c, startId = some c ∧ sid ≤ c

def Delivered (digest : String → String) (sent : List String) (x : StreamId × StreamEntry) : Prop :=
  ∃ body ∈ sent, digest body = x.2.msgId

/-- An element of a page, for the entry it was made from. -/
def Shows (digest : String → String) (element : MessageListElement) (x : StreamId × StreamEntry) : Prop :=
  element.receiveId = some x.1 ∧ ∃ body, element.msg = some body ∧ digest body = x.2.msgId

section

variable (digest : String → String) (base : List (StreamId × StreamEntry)) (last : StreamId)
  (wanted : StreamId × StreamEntry → Prop) (sent : List String)

/-- All that is wanted and under the cursor was sent, and, while the cursor is in the base, no more
than the base has under it. -/
structure Covers (startId : Option StreamId) (total : ℕ) : Prop where
  past : ∀ x, wanted x → Behind startId x.1 → Delivered digest sent x
  none_sent : startId = none → total = 0
  total_le : ∀ c, startId = some c → c ≤ last → total ≤ base.countP fun x => decide (x.1 ≤ c)

/-- The rest of a page, as the entries it shows: past the cursor, in order, and with all that is
wanted in it or past it. -/
structure OnPage (page : List MessageListElement) (pageLen : ℕ) (startId : Option StreamId)
    (rest : List (StreamId × StreamEntry)) : Prop where
  shows : List.Forall₂ (Shows digest) page rest
  sorted : rest.Pairwise fun a b => a.1 < b.1
  ahead : ∀ x ∈ rest, ¬Behind startId x.1
  known : ∀ x ∈ rest, x.1 ≤ last → x ∈ base
  reaches : ∀ x, wanted x → Behind startId x.1 ∨ x ∈ rest ∨ (pageLen = redeliveryPage ∧ ∀ y ∈ rest, y.1 < x.1)

def DrainPc.Covering : DrainPc → Prop
  | .fetching startId total => Covers digest base last wanted sent startId total
  | .sending page pageLen startId total =>
    Covers digest base last wanted sent startId total ∧
      ∃ rest, OnPage digest base last wanted page pageLen startId rest
  | .finishing | .finished => ∀ x, wanted x → Delivered digest sent x

end

section

variable {digest : String → String} {base : List (StreamId × StreamEntry)} {last : StreamId}
  {wanted wanted' : StreamId × StreamEntry → Prop} {sent sent' : List String}

variable {x : StreamId × StreamEntry}

theorem Delivered.mono (h : Delivered digest sent x) (hsent : sent ⊆ sent') : Delivered digest sent' x := by
  obtain ⟨body, hbody, heq⟩ := h
  exact ⟨body, hsent hbody, heq⟩

theorem DrainPc.Covering.mono {pc : DrainPc} (h : pc.Covering digest base last wanted sent)
    (hwanted : ∀ x, wanted' x → wanted x) (hsent : sent ⊆ sent') : pc.Covering digest base last wanted' sent' := by
  have hcovers : ∀ {startId total}, Covers digest base last wanted sent startId total →
      Covers digest base last wanted' sent' startId total := by
    intro startId total hc
    exact ⟨fun x hx hb => (hc.past x (hwanted x hx) hb).mono hsent, hc.none_sent, hc.total_le⟩
  cases pc with
  | fetching startId total => exact hcovers h
  | sending page pageLen startId total =>
    obtain ⟨hc, rest, hpage⟩ := h
    exact ⟨hcovers hc, rest, hpage.shows, hpage.sorted, hpage.ahead, hpage.known,
      fun x hx => hpage.reaches x (hwanted x hx)⟩
  | finishing | finished => exact fun x hx => (h x (hwanted x hx)).mono hsent

variable {startId : Option StreamId}

theorem Covers.total_succ {total : ℕ} (h : Covers digest base last wanted sent startId total)
    (hahead : ¬Behind startId x.1) (hmem : x ∈ base) (hlast : x.1 ≤ last) : total + 1 ≤ base.countP fun y => decide
    (y.1 ≤ x.1) := by
  have hone : 1 ≤ base.countP fun y => decide (y.1 ≤ x.1) := countP_pos_iff.2 ⟨x, hmem, by simp⟩
  cases startId with
  | none =>
    rw [h.none_sent rfl]
    exact hone
  | some c =>
    have hlt : c < x.1 := not_le.1 fun hle => hahead ⟨c, rfl, hle⟩
    have htotal := h.total_le c rfl (hlt.le.trans hlast)
    -- the base under the cursor, and the entry itself
    have hsplit : base.countP (fun y => decide (y.1 ≤ c)) + 1 ≤ base.countP fun y => decide (y.1 ≤ x.1) := by
      obtain ⟨front, back, rfl⟩ := append_of_mem hmem
      simp only [countP_append, countP_cons]
      have hfront : front.countP (fun y => decide (y.1 ≤ c)) ≤ front.countP fun y => decide (y.1 ≤ x.1) :=
        countP_mono_left fun y _ hy => decide_eq_true ((of_decide_eq_true hy).trans hlt.le)
      have hback : back.countP (fun y => decide (y.1 ≤ c)) ≤ back.countP fun y => decide (y.1 ≤ x.1) :=
        countP_mono_left fun y _ hy => decide_eq_true ((of_decide_eq_true hy).trans hlt.le)
      have hx : decide (x.1 ≤ c) = false := decide_eq_false (not_le.2 hlt)
      simp only [hx, le_refl, decide_true, if_true, Bool.false_eq_true, if_false]
      omega
    omega

theorem countP_lt_of_mem_take (hbase : base.Pairwise fun a b => a.1 < b.1) {n : ℕ} (hx : x ∈ base.take n)
    {c : StreamId} (hc : c < x.1) : base.countP (fun y => decide (y.1 ≤ c)) < n := by
  obtain ⟨front, back, hsplit⟩ := append_of_mem hx
  have hdrop : base = front ++ (x :: back ++ base.drop n) := by
    rw [← append_assoc, ← hsplit, take_append_drop]
  rw [hdrop] at hbase
  obtain ⟨-, hrest, hcross⟩ := pairwise_append.1 hbase
  have hafter : (x :: back ++ base.drop n).countP (fun y => decide (y.1 ≤ c)) = 0 := by
    refine countP_eq_zero.2 fun y hy => ?_
    rw [decide_eq_true_eq, not_le]
    rw [cons_append] at hy hrest
    rcases mem_cons.1 hy with rfl | hy
    · exact hc
    · exact hc.trans ((pairwise_cons.1 hrest).1 y hy)
  have hlen : front.length + 1 ≤ n := by
    have := length_take_le n base
    rw [hsplit, length_append, length_cons] at this
    omega
  have hle : base.countP (fun y => decide (y.1 ≤ c)) ≤ front.length := by
    rw [hdrop, countP_append, hafter]
    exact countP_le_length
  omega

theorem behind_or {element : Option StreamId} {sid c : StreamId} (h : element = some c) :
    Behind (element.or startId) sid ↔ sid ≤ c := by
  subst h
  simp [Behind]

variable {element : MessageListElement} {page : List MessageListElement} {rest : List (StreamId × StreamEntry)}

theorem OnPage.tail {pageLen : ℕ}
    (h : OnPage digest base last wanted (element :: page) pageLen startId (x :: rest)) :
    OnPage digest base last wanted page pageLen (element.receiveId.or startId) rest := by
  obtain ⟨hfirst, hrest⟩ := pairwise_cons.1 h.sorted
  obtain ⟨hshows, hforall⟩ := forall₂_cons.1 h.shows
  refine ⟨hforall, hrest, ?_, fun y hy => h.known y (mem_cons_of_mem _ hy), ?_⟩
  · intro y hy hbehind
    exact absurd (hfirst y hy) (not_lt.2 ((behind_or hshows.1).1 hbehind))
  · intro y hy
    rw [behind_or hshows.1]
    rcases h.reaches y hy with hbehind | hmem | ⟨hfull, hpast⟩
    · -- under the old cursor, so under the new one
      obtain ⟨c, rfl, hle⟩ := hbehind
      have hlt : c < x.1 := not_le.1 fun hxc => h.ahead x mem_cons_self ⟨c, rfl, hxc⟩
      exact .inl (hle.trans hlt.le)
    · rcases mem_cons.1 hmem with rfl | hmem
      · exact .inl le_rfl
      · exact .inr (.inl hmem)
    · exact .inr (.inr ⟨hfull, fun z hz => hpast z (mem_cons_of_mem _ hz)⟩)

theorem Covers.send {pageLen : ℕ} {total : ℕ} {msg : String}
    (h : Covers digest base last wanted sent startId total)
    (hpage : OnPage digest base last wanted (element :: page) pageLen startId (x :: rest))
    (hmsg : element.msg = some msg) : Covers digest base last wanted (sent ++ [msg]) (element.receiveId.or startId)
    (total + 1) := by
  obtain ⟨hshows, -⟩ := forall₂_cons.1 hpage.shows
  obtain ⟨hid, body, hbody, hdigest⟩ := hshows
  cases hmsg.symm.trans hbody
  have hnotBehind := hpage.ahead x mem_cons_self
  refine ⟨?_, ?_, ?_⟩
  · intro y hy hbehind
    have hle := (behind_or hid).1 hbehind
    rcases hpage.reaches y hy with hold | hmem | ⟨-, hpast⟩
    · exact (h.past y hy hold).mono (subset_append_left _ _)
    · rcases mem_cons.1 hmem with rfl | hmem
      · exact ⟨msg, by simp, hdigest⟩
      · exact absurd ((pairwise_cons.1 hpage.sorted).1 y hmem) (not_lt.2 hle)
    · exact absurd (hpast x mem_cons_self) (not_lt.2 hle)
  · rw [hid]
    simp
  · intro c hc hlast
    rw [hid] at hc
    cases hc
    exact h.total_succ hnotBehind (hpage.known x mem_cons_self hlast) hlast

/-! ## A page -/

theorem fetchLoop_success (didHash : String) (entries : List (StreamId × StreamEntry)) (st : MemoryState) :
    (fetchLoop didHash false entries st).1.success = entries.map fun x => x.2.fetchElement didHash st x.1 := by
  induction entries with
  | nil => rfl
  | cons x entries ih =>
    simp only [fetchLoop, Bool.false_eq_true, if_false, map_cons]
    rw [ih]

/-- The entries a page is made from. -/
def pageEntries (didHash : String) (startId : Option StreamId) (st : MemoryState) : List (StreamId × StreamEntry) :=
  fetchEntries didHash { (default : FetchOptions) with limit := redeliveryPage, startId } st

theorem fetchMessages_page (didHash : String) (startId : Option StreamId) (st : MemoryState) :
    ∃ response, (fetchMessages didHash { (default : FetchOptions) with limit := redeliveryPage, startId } st).1 =
      .ok response ∧ response.success =
        (pageEntries didHash startId st).map fun x => x.2.fetchElement didHash st x.1 :=
  ⟨_, rfl, fetchLoop_success _ _ _⟩

theorem pageEntries_eq (didHash : String) (startId : Option StreamId) (st : MemoryState) :
    ∃ p : StreamId × StreamEntry → Bool, (∀ x, p x = true ↔ ¬Behind startId x.1) ∧
      pageEntries didHash startId st = (((st.inboxOf didHash).entries.filter p).take redeliveryPage) := by
  refine ⟨fun x => startId.elim true fun start => decide (start < x.1), ?_, ?_⟩
  · intro x
    cases startId with
    | none => simp [Behind]
    | some start => simp [Behind]
  · unfold pageEntries fetchEntries MemoryState.inboxOf
    cases st.inbox didHash with
    | none => rfl
    | some stream => cases startId <;> rfl

variable {didHash : String} {st : MemoryState}

theorem onPage_of_fetch (hkept : InboxKept digest st)
    (hknown : ∀ x ∈ (st.inboxOf didHash).entries, x.1 ≤ last → x ∈ base)
    (hwanted : ∀ x, wanted x → x ∈ (st.inboxOf didHash).entries) (startId : Option StreamId) :
    OnPage digest base last wanted ((pageEntries didHash startId st).map fun x => x.2.fetchElement didHash st x.1)
    (pageEntries didHash startId st).length startId (pageEntries didHash startId st) := by
  obtain ⟨p, hp, heq⟩ := pageEntries_eq didHash startId st
  rw [heq]
  have hmem : ∀ x ∈ ((st.inboxOf didHash).entries.filter p).take redeliveryPage,
      x ∈ (st.inboxOf didHash).entries ∧ p x = true := fun x hx => mem_filter.1 (mem_of_mem_take hx)
  have hsorted : ((st.inboxOf didHash).entries.filter p).Pairwise fun a b => a.1 < b.1 :=
    (st.inboxOf didHash).sorted.filter _
  refine ⟨?_, hsorted.sublist (take_sublist _ _), fun x hx => (hp x).1 (hmem x hx).2,
    fun x hx => hknown x (hmem x hx).1, ?_⟩
  · rw [forall₂_map_left_iff, forall₂_same]
    rintro ⟨sid, e⟩ hx
    obtain ⟨m, r, hm, -, rfl⟩ := (hkept.inbox didHash sid e).1 (hmem _ hx).1
    refine ⟨rfl, r.body, ?_, (hkept.named hm).symm⟩
    simp [StreamEntry.fetchElement, MessageRecord.inboxEntry, hm]
  · intro x hx
    by_cases hbehind : Behind startId x.1
    · exact .inl hbehind
    · right
      have hin : x ∈ (st.inboxOf didHash).entries.filter p := mem_filter.2 ⟨hwanted x hx, (hp x).2 hbehind⟩
      rw [← take_append_drop redeliveryPage ((st.inboxOf didHash).entries.filter p)] at hin hsorted
      rcases mem_append.1 hin with hin | hin
      · exact .inl hin
      · refine .inr ⟨?_, fun y hy => (pairwise_append.1 hsorted).2.2 y hy x hin⟩
        -- what is past the page says that the page is full
        have hlong : redeliveryPage < ((st.inboxOf didHash).entries.filter p).length := by
          by_contra hle
          rw [drop_eq_nil_of_le (not_lt.1 hle)] at hin
          cases hin
        rw [length_take]
        omega

/-! ## Steps of the task -/

/-- The task keeps covering what is wanted, as long as its connection is open. -/
theorem DrainPc.Covering.step {pc : DrainPc} (hkept : InboxKept digest st)
    (hbase : base.Pairwise fun a b => a.1 < b.1) (hlast : ∀ x ∈ base, x.1 ≤ last)
    (hknown : ∀ x ∈ (st.inboxOf didHash).entries, x.1 ≤ last → x ∈ base)
    (hwanted : ∀ x, wanted x → x ∈ base.take redeliveryMax ∧ x ∈ (st.inboxOf didHash).entries)
    (h : pc.Covering digest base last wanted sent) : (pc.step didHash st true).1.Covering digest base last wanted
    (sent ++ (pc.step didHash st true).2.toList) := by
  cases pc with
  | fetching startId total =>
    obtain ⟨response, hfetch, hsuccess⟩ := fetchMessages_page didHash startId st
    have hpage := onPage_of_fetch hkept hknown (fun x hx => (hwanted x hx).2) startId
    simp only [DrainPc.step, hfetch]
    split
    · rename_i hempty
      simp only [toList_none, append_nil]
      intro x hx
      have hnil : pageEntries didHash startId st = [] := by
        rw [hsuccess, List.isEmpty_iff, map_eq_nil_iff] at hempty
        exact hempty
      rcases hpage.reaches x hx with hbehind | hmem | ⟨hfull, -⟩
      · exact h.past x hx hbehind
      · rw [hnil] at hmem
        cases hmem
      · rw [hnil] at hfull
        cases hfull
    · simp only [toList_none, append_nil, hsuccess, length_map]
      exact ⟨h, _, hpage⟩
  | sending page pageLen startId total =>
    obtain ⟨hcovers, rest, hpage⟩ := h
    cases page with
    | nil =>
      obtain rfl : rest = [] := forall₂_nil_left_iff.1 hpage.shows
      simp only [DrainPc.step]
      split
      · rename_i hshort
        simp only [toList_none, append_nil]
        intro x hx
        rcases hpage.reaches x hx with hbehind | hmem | ⟨hfull, -⟩
        · exact hcovers.past x hx hbehind
        · cases hmem
        · exact absurd hfull hshort.ne
      · simp only [toList_none, append_nil]
        exact hcovers
    | cons element page =>
      obtain ⟨x, rest, hshows, -, rfl⟩ := forall₂_cons_left_iff.1 hpage.shows
      obtain ⟨hid, msg, hmsg, -⟩ := hshows
      have hsent := hcovers.send hpage hmsg
      simp only [DrainPc.step, hmsg, if_true]
      split
      · rename_i hmax
        simp only [toList_some]
        intro y hy
        -- a thousand were sent, so the cursor is past every wanted entry
        refine hsent.past y hy ((behind_or hid).2 ?_)
        by_contra hlt
        have hbound := countP_lt_of_mem_take hbase (hwanted y hy).1 (not_le.1 hlt)
        have hylast := hlast y (mem_of_mem_take (hwanted y hy).1)
        have htotal := hsent.total_le x.1 (by rw [hid]; rfl) ((not_le.1 hlt).le.trans hylast)
        omega
      · simp only [toList_some]
        exact ⟨hsent, rest, hpage.tail⟩
  | finishing | finished =>
    simp only [DrainPc.step, toList_none, append_nil]
    exact h

end

/-! ## Registrations -/

/-- What the effects of a registration leave as it is. -/
structure Applied (effects : List StreamingEffect) (w w' : Streams) : Prop where
  task : w'.task = w.task
  store : w'.store = w.store
  channels : ∀ (i : ℕ) (c : Channel), w.channels[i]? = some c →
    ∃ closeSent, w'.channels[i]? = some { c with closeSent }
  length : w'.channels.length = w.channels.length
  drains : ∀ (k : ℕ) (d : Drain), w.drains[k]? = some d → w'.drains[k]? = some d
  new : ∀ d ∈ w'.drains, d ∈ w.drains ∨ ∃ didHash, .redeliver d.channel didHash ∈ effects

open Streams

theorem applied (effects : List StreamingEffect) (w : Streams) :
    Applied effects w (effects.foldl apply w) := by
  induction effects generalizing w with
  | nil => exact ⟨rfl, rfl, fun i c hc => ⟨c.closeSent, hc⟩, rfl, fun k d hd => hd, fun d hd => .inl hd⟩
  | cons effect effects ih =>
    have hrest := ih (w.apply effect)
    rw [foldl_cons]
    cases effect with
    | close j =>
      refine ⟨hrest.task, hrest.store, ?_, ?_, hrest.drains, ?_⟩
      · intro i c hc
        by_cases hij : j = i
        · subst hij
          obtain ⟨closeSent, hc'⟩ := hrest.channels j { c with closeSent := true } (by
            simp [apply, hc])
          exact ⟨closeSent, hc'⟩
        · exact hrest.channels i c (by simp [apply, hij, hc])
      · rw [hrest.length]
        simp [apply]
      · intro d hd
        exact (hrest.new d hd).imp_right fun ⟨did, hdid⟩ => ⟨did, mem_cons_of_mem _ hdid⟩
    | redeliver channel didHash =>
      refine ⟨hrest.task, hrest.store, hrest.channels, hrest.length, ?_, ?_⟩
      · intro k d hd
        refine hrest.drains k d ?_
        simp only [apply]
        rw [getElem?_append_left (List.getElem?_eq_some_iff.1 hd).1]
        exact hd
      · intro d hd
        rcases hrest.new d hd with hold | ⟨did, hdid⟩
        · rcases mem_append.1 hold with hold | hnew
          · exact .inl hold
          · obtain rfl := mem_singleton.1 hnew
            exact .inr ⟨didHash, mem_cons_self⟩
        · exact .inr ⟨did, mem_cons_of_mem _ hdid⟩

theorem redeliver_mem_handleRegistration {task : StreamingTask} {didHash did didHash' : String}
    {channel channel' : ℕ}
    (h : .redeliver channel' didHash' ∈ (handleRegistration task didHash did channel).2) : channel' = channel := by
  unfold handleRegistration at h
  split at h
  · simp at h
  · cases htask : task.clients didHash with
    | none => simp [htask] at h
    | some old =>
      simp only [htask] at h
      split at h
      · simp at h
      · simp only [mem_cons, reduceCtorEq, StreamingEffect.redeliver.injEq, not_mem_nil, or_false, false_or] at h
        exact h.1

section

variable {digest : String → String} {didHash did : String} {w w' : Streams}

theorem step_register (w : Streams) :
    Applied (handleRegistration w.task didHash did w.channels.length).2
      { w with
        task := (handleRegistration w.task didHash did w.channels.length).1
        channels := w.channels ++ [⟨true, false, []⟩] }
      (w.step digest didHash did .register) := applied _ _

theorem getElem?_append_channel {channels : List Channel} {i : ℕ} {c : Channel} (h : channels[i]? = some c)
    (new : Channel) : (channels ++ [new])[i]? = some c := by
  rw [getElem?_append_left (List.getElem?_eq_some_iff.1 h).1]
  exact h

/-! ## Runs -/

/-- What is to be redelivered: among the first at the registration, and still there. -/
def Wanted (didHash : String) (base : List (StreamId × StreamEntry)) (st : MemoryState)
    (x : StreamId × StreamEntry) :
    Prop :=
  x ∈ base.take redeliveryMax ∧ x ∈ (st.inboxOf didHash).entries

/-- The store is in order, no entry comes back, and the task of the connection covers what is wanted
as long as the connection is open. -/
structure Serving (digest : String → String) (didHash : String) (base : List (StreamId × StreamEntry))
    (last : StreamId)
    (channel k : ℕ) (w : Streams) : Prop where
  kept : Kept digest w.store
  known : ∀ x ∈ (w.store.inboxOf didHash).entries, x.1 ≤ last → x ∈ base
  last_le : last ≤ w.store.lastId
  serves : ∃ d c, w.drains[k]? = some d ∧ d.channel = channel ∧ w.channels[channel]? = some c ∧
    (c.isOpen = true → d.pc.Covering digest base last (Wanted didHash base w.store) c.sent)

variable {base : List (StreamId × StreamEntry)} {last : StreamId} {channel k : ℕ}

theorem Serving.register (h : Serving digest didHash base last channel k w) : Serving digest didHash base last
    channel k (w.step digest didHash did .register) := by
  have happlied := @step_register digest didHash did w
  obtain ⟨d, c, hd, hchannel, hc, hcovering⟩ := h.serves
  obtain ⟨closeSent, hc'⟩ := happlied.channels channel c (getElem?_append_channel hc _)
  refine ⟨?_, ?_, ?_, d, _, happlied.drains k d hd, hchannel, hc', ?_⟩
  · rw [happlied.store]
    exact h.kept
  · rw [happlied.store]
    exact h.known
  · rw [happlied.store]
    exact h.last_le
  · rw [happlied.store]
    exact hcovering

theorem Serving.drain (hbase : base.Pairwise fun a b => a.1 < b.1) (hlast : ∀ x ∈ base, x.1 ≤ last)
    (h : Serving digest didHash base last channel k w) (j : ℕ) : Serving digest didHash base last channel k
    (w.step digest didHash did (.drain j)) := by
  obtain ⟨d, c, hd, hchannel, hc, hcovering⟩ := h.serves
  simp only [step]
  cases hj : w.drains[j]? with
  | none => exact h
  | some d' =>
    refine ⟨h.kept, h.known, h.last_le, ?_⟩
    by_cases hjk : j = k
    · subst hjk
      cases hd.symm.trans hj
      refine ⟨_, { c with sent := c.sent ++ (d.pc.step didHash w.store c.isOpen).2.toList },
        getElem?_set_self (List.getElem?_eq_some_iff.1 hd).1, hchannel, ?_, ?_⟩
      · simp [hchannel, hc]
      · intro hopen
        simp only [hchannel, hc, map_some, getD_some] at hopen ⊢
        rw [hopen]
        exact (hcovering hopen).step h.kept.inboxes hbase hlast h.known fun x hx => hx
    · have hd' : ∀ d₁, (w.drains.set j d₁)[k]? = some d := fun d₁ => by
        rw [getElem?_set_ne hjk]
        exact hd
      by_cases hsame : d'.channel = channel
      · refine ⟨d, { c with sent := c.sent ++
          (d'.pc.step didHash w.store (((w.channels[d'.channel]?).map Channel.isOpen).getD false)).2.toList },
          hd' _, hchannel, ?_, ?_⟩
        · simp [hsame, hc]
        · exact fun hopen => (hcovering hopen).mono (fun _ hx => hx) (subset_append_left _ _)
      · exact ⟨d, c, hd' _, hchannel, by simp [hsame, hc], hcovering⟩

theorem Serving.gone (h : Serving digest didHash base last channel k w) (i : ℕ) : Serving digest didHash base last
    channel k (w.step digest didHash did (.gone i)) := by
  obtain ⟨d, c, hd, hchannel, hc, hcovering⟩ := h.serves
  refine ⟨h.kept, h.known, h.last_le, d, ?_⟩
  by_cases hi : i = channel
  · subst hi
    refine ⟨{ c with isOpen := false }, hd, hchannel, ?_, fun hopen => nomatch hopen⟩
    simp [step, hc]
  · exact ⟨c, hd, hchannel, by simp [step, hi, hc], hcovering⟩

theorem Serving.call (hdigest : Function.Injective digest) (hlast : ∀ x ∈ base, x.1 ≤ last)
    (h : Serving digest didHash base last channel k w) {call : MessageCall} (hfresh : call.Fresh w.store)
    (hcaps : (call.exec digest w.store).WithinCaps) : Serving digest didHash base last channel k
    (w.step digest didHash did (.call call)) := by
  obtain ⟨d, c, hd, hchannel, hc, hcovering⟩ := h.serves
  have hreturn : ∀ x ∈ ((call.exec digest w.store).inboxOf didHash).entries, x.1 ≤ last →
      x ∈ (w.store.inboxOf didHash).entries :=
    fun x hx hle => h.kept.entry_of_call hdigest hfresh hcaps hx (hle.trans h.last_le)
  refine ⟨h.kept.call hdigest hfresh hcaps, fun x hx hle => h.known x (hreturn x hx hle) hle,
    h.last_le.trans (call.exec_lastId digest w.store), d, c, hd, hchannel, hc, fun hopen => ?_⟩
  refine (hcovering hopen).mono ?_ (List.Subset.refl _)
  rintro x ⟨hbase, hx⟩
  exact ⟨hbase, hreturn x hx (hlast x (mem_of_mem_take hbase))⟩

/-- Whatever moves, the redelivery goes on covering what is wanted. -/
theorem Serving.run (hdigest : Function.Injective digest) (hbase : base.Pairwise fun a b => a.1 < b.1)
    (hlast : ∀ x ∈ base, x.1 ≤ last) (h : Serving digest didHash base last channel k w)
    (hrun : ReflTransGen (Moves digest didHash did) w w') : Serving digest didHash base last
    channel k w' := by
  induction hrun with
  | refl => exact h
  | tail _ hmove ih =>
    obtain ⟨e, hproper, rfl⟩ := hmove
    cases e with
    | register => exact ih.register
    | drain j => exact ih.drain hbase hlast j
    | gone i => exact ih.gone i
    | call call => exact ih.call hdigest hlast hproper.1 hproper.2

/-- What holds in every state: the store is in order, a redelivery goes to a connection there is, and
only a named DID has a client. -/
structure Sound (digest : String → String) (didHash did : String) (w : Streams) : Prop where
  kept : Kept digest w.store
  channels : ∀ d ∈ w.drains, d.channel < w.channels.length
  named : (w.task.clients didHash).isSome = true → (did.isEmpty || didHash.isEmpty) = false

theorem mem_drains_step {d : Drain} (hd : d ∈ (w.step digest didHash did (.drain k)).drains) : ∃ d' ∈ w.drains,
    d'.channel = d.channel := by
  simp only [step] at hd
  cases hk : w.drains[k]? with
  | none =>
    rw [hk] at hd
    exact ⟨d, hd, rfl⟩
  | some d' =>
    rw [hk] at hd
    rcases mem_or_eq_of_mem_set hd with hold | rfl
    · exact ⟨d, hold, rfl⟩
    · exact ⟨d', mem_of_getElem? hk, rfl⟩

/-- Every proper event keeps the channels sound. -/
theorem Sound.step (hdigest : Function.Injective digest) (h : Sound digest didHash did w) {e : StreamsEvent}
    (hproper : w.Proper digest e) : Sound digest didHash did (w.step digest didHash did e) := by
  cases e with
  | register =>
    have happlied := @step_register digest didHash did w
    refine ⟨?_, ?_, ?_⟩
    · rw [happlied.store]
      exact h.kept
    · intro d hd
      rw [happlied.length, length_append, length_singleton]
      rcases happlied.new d hd with hold | ⟨did', hnew⟩
      · exact (h.channels d hold).trans (Nat.lt_succ_self _)
      · rw [redeliver_mem_handleRegistration hnew]
        exact Nat.lt_succ_self _
    · intro hsome
      rw [happlied.task] at hsome
      simp only at hsome
      unfold handleRegistration at hsome
      split at hsome
      · exact h.named hsome
      · rename_i hnamed
        simpa using hnamed
  | drain k =>
    refine ⟨?_, ?_, ?_⟩
    · simp only [Streams.step]
      cases w.drains[k]? <;> exact h.kept
    · intro d hd
      obtain ⟨d', hd', hchannel⟩ := mem_drains_step hd
      have hlt := h.channels d' hd'
      simp only [Streams.step]
      cases w.drains[k]? with
      | none => exact hchannel ▸ hlt
      | some d₁ =>
        simp only [length_modify]
        exact hchannel ▸ hlt
    · intro hsome
      refine h.named ?_
      simp only [Streams.step] at hsome
      cases hk : w.drains[k]? with
      | none =>
        rw [hk] at hsome
        exact hsome
      | some d =>
        rw [hk] at hsome
        by_cases hfinishing : d.pc = .finishing <;> simpa [hfinishing] using hsome
  | gone i => exact ⟨h.kept, fun d hd => by simpa [Streams.step] using h.channels d hd, h.named⟩
  | call call => exact ⟨h.kept.call hdigest hproper.1 hproper.2, h.channels, h.named⟩

/-- So does every run. -/
theorem Sound.run (hdigest : Function.Injective digest) (h : Sound digest didHash did w)
    (hrun : ReflTransGen (Moves digest didHash did) w w') : Sound digest didHash did w' := by
  induction hrun with
  | refl => exact h
  | tail _ hmove ih =>
    obtain ⟨e, hproper, rfl⟩ := hmove
    exact ih.step hdigest hproper

theorem sound_default : Sound digest didHash did default := by
  refine ⟨kept_default digest, ?_, ?_⟩
  · intro d hd
    cases hd
  · intro hsome
    cases hsome

/-- No redelivery is for this connection, and none ever sent it anything. -/
structure Overlooked (channel : ℕ) (w : Streams) : Prop where
  registered : ∃ c, w.channels[channel]? = some c ∧ c.sent = []
  drains : ∀ d ∈ w.drains, d.channel ≠ channel

/-- What was overlooked stays so. -/
theorem Overlooked.step (h : Overlooked channel w) (e : StreamsEvent) :
    Overlooked channel (w.step digest didHash did e) := by
  obtain ⟨c, hc, hsent⟩ := h.registered
  cases e with
  | register =>
    have happlied := @step_register digest didHash did w
    obtain ⟨closeSent, hc'⟩ := happlied.channels channel c (getElem?_append_channel hc _)
    refine ⟨⟨_, hc', hsent⟩, ?_⟩
    intro d hd
    rcases happlied.new d hd with hold | ⟨did', hnew⟩
    · exact h.drains d hold
    · rw [redeliver_mem_handleRegistration hnew]
      exact (List.getElem?_eq_some_iff.1 hc).1.ne'
  | drain k =>
    refine ⟨⟨c, ?_, hsent⟩, ?_⟩
    · simp only [Streams.step]
      cases hk : w.drains[k]? with
      | none => exact hc
      | some d =>
        have hne : d.channel ≠ channel := h.drains d (mem_of_getElem? hk)
        simp [hne, hc]
    · intro d hd
      obtain ⟨d', hd', hchannel⟩ := mem_drains_step hd
      exact hchannel ▸ h.drains d' hd'
  | gone i =>
    refine ⟨?_, h.drains⟩
    by_cases hi : i = channel
    · subst hi
      exact ⟨{ c with isOpen := false }, by simp [Streams.step, hc], hsent⟩
    · exact ⟨c, by simp [Streams.step, hi, hc], hsent⟩
  | call call => exact ⟨⟨c, hc, hsent⟩, h.drains⟩

theorem Overlooked.run (h : Overlooked channel w)
    (hrun : ReflTransGen (Moves digest didHash did) w w') : Overlooked channel w' := by
  induction hrun with
  | refl => exact h
  | tail _ hmove ih =>
    obtain ⟨e, -, rfl⟩ := hmove
    exact ih.step e

/-- A connection that replaces another, with no redelivery running: it gets one of its own. -/
theorem Sound.serving (h : Sound digest didHash did w) (hreplaces : (w.task.clients didHash).isSome = true)
    (hidle : didHash ∉ w.task.replayInProgress) :
    Serving digest didHash (w.store.inboxOf didHash).entries w.store.lastId w.channels.length w.drains.length
      (w.step digest didHash did .register) := by
  obtain ⟨old, hold⟩ := isSome_iff_exists.1 hreplaces
  have hregister : handleRegistration w.task didHash did w.channels.length =
      (⟨Function.update w.task.clients didHash (some ⟨w.channels.length, false⟩),
        insert didHash w.task.replayInProgress⟩, [.close old.tx, .redeliver w.channels.length didHash]) := by
    unfold handleRegistration
    rw [h.named hreplaces, if_neg Bool.false_ne_true, hold]
    exact if_neg hidle
  have happlied := @step_register digest didHash did w
  obtain ⟨closeSent, hc⟩ := happlied.channels w.channels.length ⟨true, false, []⟩ (by simp)
  refine ⟨?_, ?_, ?_, ⟨w.channels.length, .fetching none 0⟩, _, ?_, rfl, hc, fun _ => ?_⟩
  · rw [happlied.store]
    exact h.kept
  · rw [happlied.store]
    exact fun x hx _ => hx
  · rw [happlied.store]
  · simp [Streams.step, hregister, Streams.apply]
  · refine ⟨?_, fun _ => rfl, ?_⟩
    · rintro x - ⟨c, hc, -⟩
      cases hc
    · intro c hc
      cases hc

theorem Sound.overlooked (h : Sound digest didHash did w) (hreplaces : (w.task.clients didHash).isSome = true)
    (hbusy : didHash ∈ w.task.replayInProgress) :
      Overlooked w.channels.length (w.step digest didHash did .register) := by
  obtain ⟨old, hold⟩ := isSome_iff_exists.1 hreplaces
  have heffects : (handleRegistration w.task didHash did w.channels.length).2 = [.close old.tx] := by
    unfold handleRegistration
    rw [h.named hreplaces, if_neg Bool.false_ne_true, hold]
    simp only [if_pos hbusy]
  have happlied := @step_register digest didHash did w
  obtain ⟨closeSent, hc⟩ := happlied.channels w.channels.length ⟨true, false, []⟩ (by simp)
  refine ⟨⟨_, hc, rfl⟩, ?_⟩
  intro d hd
  rcases happlied.new d hd with hold | ⟨did', hnew⟩
  · exact (h.channels d hold).ne
  · rw [heffects] at hnew
    simp at hnew

/-- A connection that replaces another gets all it is due if no redelivery for the DID was running
when it registered; if one was, it gets nothing. -/
theorem redelivered_iff (hdigest : Function.Injective digest)
    (hreach : ReflTransGen (Moves digest didHash did) default w)
    (hreplaces : (w.task.clients didHash).isSome = true)
    (hrun : ReflTransGen (Moves digest didHash did) (w.step digest didHash did .register) w')
    (hopen : ∀ c, w'.channels[w.channels.length]? = some c → c.isOpen = true)
    (hdone : ∀ d ∈ w'.drains, d.pc = .finished) :
    Redelivered didHash w w' w.channels.length ↔
      didHash ∉ w.task.replayInProgress ∨
        ∀ x ∈ (w.store.inboxOf didHash).entries.take redeliveryMax, x ∉ (w'.store.inboxOf didHash).entries := by
  have hsound : Sound digest didHash did w := sound_default.run hdigest hreach
  have hsound' : Sound digest didHash did w' := (hsound.step hdigest (e := .register) trivial).run hdigest hrun
  constructor
  · intro hredelivered
    by_cases hidle : didHash ∉ w.task.replayInProgress
    · exact .inl hidle
    · refine .inr fun x hx hthere => ?_
      obtain ⟨c, hc, hsent⟩ := ((hsound.overlooked hreplaces (not_not.1 hidle)).run hrun).registered
      obtain ⟨sid, e⟩ := x
      obtain ⟨m, r, hm, -, rfl⟩ := (hsound'.kept.inbox didHash sid e).1 hthere
      obtain ⟨c', hc', hbody⟩ := hredelivered _ hx hthere r hm
      cases hc.symm.trans hc'
      rw [hsent] at hbody
      cases hbody
  · rintro (hidle | hnone) x hx hthere r hr
    · have hserving := (hsound.serving hreplaces hidle).run hdigest (w.store.inboxOf didHash).sorted
        (fun y hy => hsound.kept.inbox_le didHash y hy) hrun
      obtain ⟨d, c, hd, -, hc, hcovering⟩ := hserving.serves
      have hcovered := hcovering (hopen c hc)
      rw [hdone d (mem_of_getElem? hd)] at hcovered
      obtain ⟨body, hbody, heq⟩ := hcovered x ⟨hx, hthere⟩
      have hsame : body = r.body := hdigest (heq.trans (hsound'.kept.named hr))
      exact ⟨c, hc, hsame ▸ hbody⟩
    · exact absurd hthere (hnone x hx)

end

/-- Events one after the other. -/
def Streams.run (w : Streams) (events : List StreamsEvent) : Streams :=
  events.foldl (Streams.step id "bob" "did:ex:bob") w

theorem moves_run {w : Streams} {events : List StreamsEvent} (hcalls : ∀ e ∈ events, ∀ call, e ≠ .call call) :
    ReflTransGen (Moves id "bob" "did:ex:bob") w (w.run events) := by
  induction events generalizing w with
  | nil => exact .refl
  | cons e events ih =>
    have hproper : w.Proper id e := by
      cases e with
      | call call => exact absurd rfl (hcalls _ mem_cons_self call)
      | _ => trivial
    exact .head ⟨e, hproper, rfl⟩ (ih fun e' he' => hcalls e' (mem_cons_of_mem _ he'))

/-- Bob has one message and one connection. -/
def connected : Streams := Streams.run default [.call (.store 1 "hello" "bob" (some "alice") 60), .register]

theorem connected_reached : ReflTransGen (Moves id "bob" "did:ex:bob") default connected := by
  have hstored : Moves id "bob" "did:ex:bob" default
      (run default [.call (.store 1 "hello" "bob" (some "alice") 60)]) := by
    refine ⟨.call (.store 1 "hello" "bob" (some "alice") 60), ⟨?_, oneMessage_withinCaps⟩, rfl⟩
    rintro nowMs message toDidHash fromHash expiresAt - m r hm
    cases hm
  exact .tail (.single hstored) ⟨.register, trivial, rfl⟩

/-- A reconnect, and its redelivery to the end. -/
theorem redelivered_reconnect :
    let w' := (connected.run [.register]).run (List.replicate 4 (.drain 0))
    Redelivered "bob" connected w' 1 ∧ (w'.channels.map Channel.sent = [[], ["hello"]]) ∧
      ((w'.store.inboxOf "bob").values.map StreamEntry.msgId = ["hello"]) := by
  intro w'
  have hstate : (connected.task.clients "bob").isSome = true ∧ connected.channels.length = 1 ∧
      "bob" ∉ connected.task.replayInProgress ∧ (w'.channels.map Channel.isOpen = [true, true]) ∧
      (w'.drains.map Drain.pc = [.finished]) ∧ (w'.channels.map Channel.sent = [[], ["hello"]]) ∧
      ((w'.store.inboxOf "bob").values.map StreamEntry.msgId = ["hello"]) := by
    decide +kernel
  obtain ⟨hreplaces, hlength, hidle, hopen, hdone, hsent, hinbox⟩ := hstate
  have hrun : ReflTransGen (Moves id "bob" "did:ex:bob")
      (connected.step id "bob" "did:ex:bob" .register) w' := moves_run (by simp)
  have hiff := redelivered_iff Function.injective_id connected_reached hreplaces hrun
    (by
      intro c hc
      have hmem := List.mem_map_of_mem (f := Channel.isOpen) (mem_of_getElem? hc)
      rw [hopen] at hmem
      simpa using hmem)
    (by
      intro d hd
      have hmem := List.mem_map_of_mem (f := Drain.pc) hd
      rw [hdone] at hmem
      exact mem_singleton.1 hmem)
  rw [hlength] at hiff
  exact ⟨hiff.2 (.inl hidle), hsent, hinbox⟩

/-- Three connections: the second is replaced while its redelivery runs, and the third gets nothing. -/
theorem third_connection_gets_nothing :
    let w := connected.run [.register]
    let w' := w.run [.register, .gone 1, .drain 0, .drain 0, .drain 0]
    (w.task.clients "bob").isSome = true ∧ w.channels.length = 2 ∧ (w'.drains.map Drain.pc = [.finished]) ∧
      ((w'.channels.map fun c => (c.isOpen, c.sent)) = [(true, []), (false, []), (true, [])]) ∧
      ((w'.store.inboxOf "bob").values.map StreamEntry.msgId = ["hello"]) ∧ ¬Redelivered "bob" w w' 2 := by
  intro w w'
  have hstate : (w.task.clients "bob").isSome = true ∧ w.channels.length = 2 ∧
    (w'.drains.map Drain.pc = [.finished]) ∧
      ((w'.channels.map fun c => (c.isOpen, c.sent)) = [(true, []), (false, []), (true, [])]) ∧
      ((w'.store.inboxOf "bob").values.map StreamEntry.msgId = ["hello"]) ∧
      (w.store.inboxOf "bob").entries = (w'.store.inboxOf "bob").entries ∧
      ((w'.store.messages "hello").map MessageRecord.body = some "hello") := by
    decide +kernel
  obtain ⟨hreplaces, hlength, hdone, hchannels, hinbox, hsame, hbody⟩ := hstate
  refine ⟨hreplaces, hlength, hdone, hchannels, hinbox, ?_⟩
  intro hredelivered
  obtain ⟨r, hr, -⟩ := map_eq_some_iff.1 hbody
  cases hentries : (w'.store.inboxOf "bob").entries with
  | nil =>
    rw [OrdMap.values, hentries] at hinbox
    cases hinbox
  | cons x rest =>
    have hid : x.2.msgId = "hello" := by
      rw [OrdMap.values, hentries] at hinbox
      simpa using (List.cons.inj hinbox).1
    obtain ⟨c, hc, hsent⟩ := hredelivered x (by rw [hsame, hentries]; exact mem_cons_self)
      (by rw [hentries]; exact mem_cons_self) r (by rw [hid]; exact hr)
    have hthird : (w'.channels.map fun c => (c.isOpen, c.sent))[2]? = some (c.isOpen, c.sent) := by
      rw [getElem?_map, hc]
      rfl
    rw [hchannels] at hthird
    obtain ⟨-, hnil⟩ := Prod.mk.inj (some.inj hthird)
    rw [← hnil] at hsent
    cases hsent

end AffinidiTdk.Websocket
