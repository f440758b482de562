/-
What holds of the network task over whole runs: its counts and that no client is answered twice in every run; that every
pending hash is on its way and that a full list empties only as long as no write fails, no connection is lost under a
pending hash, and no full list is left to clients that have timed out.
-/
import AffinidiTdk.Resolver.NetworkTask

namespace AffinidiTdk.Resolver

open Function List Option OrdMap RequestList

variable {K : Type} [LinearOrder K]

namespace NetworkTask

/-! ## What the task owes -/

/-- The client's timer has fired. -/
def TimedOut (s : NetworkTask K) (c : Responder) : Prop :=
  ∃ client, s.clients c = some client ∧ (client.status = .expiring ∨ client.status = .timedOut)

/-- Every client of a pending request has timed out. -/
def AllTimedOut (s : NetworkTask K) : Prop :=
  ∀ e ∈ s.cache.list.entries, ∀ entry ∈ e.2, s.TimedOut entry.2

/-- The count is that of the pending hashes, the flag that of the limit, and no client is answered twice. -/
structure Accounted (s : NetworkTask K) : Prop where
  counted : s.cache.totalCount = s.cache.list.length
  full_iff : s.cache.isFull = true ↔ s.cache.limitCount < s.cache.totalCount
  once : s.answers.Nodup

/-- Every pending hash was written to the connection there is. -/
def Written (s : NetworkTask K) : Prop :=
  ∀ hash ∈ s.cache.list.keys, ∃ written, s.connection = .up written ∧ hash ∈ written

def IsResponse (e : Event K) : Prop := ∃ message, e = .receive message

/-- Without a response, some continuation ends where a request is next and can be read. -/
def ReadsAgain (s : NetworkTask K) : Prop :=
  ∃ es s', (∀ e ∈ es, ¬IsResponse e) ∧ s.run es = some s' ∧
    ∃ c uid hash rest, s'.sdkRx = .send c uid hash :: rest ∧ (s'.step (.read true)).isSome

/-- No hash is stranded, and a full list of clients that have timed out does not stay in the way. -/
structure Kept (s : NetworkTask K) : Prop where
  written : s.Written
  recovers : s.cache.isFull = true → s.AllTimedOut → s.ReadsAgain

/-- A new hash is written to the socket and does not fill up a list of clients that have timed out; the last timer
does not fire while the list is full; the connection is not lost under a pending hash. -/
def Meets (s : NetworkTask K) : Event K → Prop
  | .read sent => ∀ c uid hash rest, s.sdkRx = .send c uid hash :: rest → s.cache.list.get? hash = none →
      sent = true ∧ ¬(s.cache.totalCount = s.cache.limitCount ∧ s.AllTimedOut ∧ s.TimedOut c)
  | .expire c =>
    ¬(s.cache.isFull = true ∧ ∀ e ∈ s.cache.list.entries, ∀ entry ∈ e.2, entry.2 ≠ c → s.TimedOut entry.2)
  | .lost => s.cache.list.entries = []
  | _ => True

variable {s s' : NetworkTask K} {e : Event K}

/-! ## Answers -/

/-- Where the channel of `c` is: on its way to the task, in the list, or answered. -/
def held (s : NetworkTask K) (c : Responder) : ℕ :=
  (s.sdkRx.filterMap WSCommand.channel?).count c + s.cache.waiting c + s.answers.count c

/-- `c` has sent nothing. -/
def NotSent (s : NetworkTask K) (c : Responder) : Prop := ∀ client, s.clients c = some client → client.status =
    .sending

/-- The count and the flag are right, and the channel of a client is in one place at most. -/
structure Held (s : NetworkTask K) : Prop where
  counted : s.cache.Counted
  once : ∀ c, s.held c ≤ 1
  none : ∀ c, s.NotSent c → s.held c = 0

variable {c : Responder}

omit [LinearOrder K] in
theorem notSent_of_settle {clients : Responder → Option (Client K)} {channels : List Responder} {status : Status}
    (hstatus : status ≠ .sending) (h : ∀ client, settle clients channels status c = some client → client.status =
    .sending) : ∀ client, clients c = some client → client.status = .sending := by
  intro client hclient
  by_cases hmem : c ∈ channels ∧ client.status = .waiting
  · have hset : settle clients channels status c = some { client with status } := by
      rw [settle, hclient, map_some, if_pos hmem]
    exact absurd (h _ hset) hstatus
  · have hset : settle clients channels status c = some client := by
      rw [settle, hclient, map_some, if_neg hmem]
    exact h _ hset

theorem held_start (limitCount : ℕ) : (start limitCount : NetworkTask K).Held := by
  constructor
  · exact counted_new limitCount
  · exact fun c => Nat.zero_le 1
  · exact fun c _ => rfl

variable {client : Client K}

theorem notSent_of_update {d : Responder}
    (h : ∀ client', update s.clients c (some client) d = some client' → client'.status = .sending)
    (hclient : d = c → client.status ≠ .sending) : s.NotSent d := by
  by_cases hd : d = c
  · have hself := h client (by rw [hd, update_self])
    exact absurd hself (hclient hd)
  · rw [update_of_ne hd] at h
    exact h

theorem held_read {c : ℕ} {uid : String} {hash : K} {rest : List (WSCommand K)}
    (hrx : s.sdkRx = .send c uid hash :: rest) (d : ℕ) :
    ({ s with sdkRx := rest, cache := (s.cache.insert hash uid c).2 } : NetworkTask K).held d = s.held d := by
  simp only [held, hrx, filterMap_cons, WSCommand.channel?, count_cons, waiting_insert, beq_iff_eq]
  omega

/-- Every step keeps the count right and each channel in one place. -/
theorem held_step (hheld : s.Held) (h : s.step e = some s') : s'.Held := by
  obtain ⟨hcounted, honce, hnone⟩ := hheld
  cases stepped_of_step h with
  | @resolve c uid hash hclient =>
    refine ⟨hcounted, honce, fun d hd => hnone d fun client hclientd => ?_⟩
    by_cases hdc : d = c
    · rw [hdc, hclient] at hclientd
      cases hclientd
    · exact hd client (by show update _ _ _ _ = _; rw [update_of_ne hdc, hclientd])
  | @send c uid hash hclient =>
    have hc : s.held c = 0 := hnone c fun client hclientc => by
      rw [hclient] at hclientc
      rw [← some.inj hclientc]
    -- the command holds a channel that nothing held
    have hmore : ∀ d, ({ s with
        sdkRx := s.sdkRx ++ [.send c uid hash]
        clients := update s.clients c (some ⟨uid, hash, .waiting⟩) } : NetworkTask K).held d =
        s.held d + if c = d then 1 else 0 := by
      intro d
      simp only [held, filterMap_append, filterMap_cons, filterMap_nil, WSCommand.channel?,
        count_append, count_singleton, beq_iff_eq]
      omega
    refine ⟨hcounted, fun d => ?_, fun d hd => ?_⟩
    · rw [hmore]
      by_cases hcd : c = d
      · rw [if_pos hcd, ← hcd, hc]
      · rw [if_neg hcd]
        exact honce d
    · have hdc : c ≠ d := by
        rintro rfl
        have hwaiting := hd ⟨uid, hash, .waiting⟩ (by show update _ _ _ _ = _; rw [update_self])
        cases hwaiting
      rw [hmore, if_neg hdc]
      exact hnone d (notSent_of_update hd fun hd => absurd hd.symm hdc)
  | @expire c uid hash hclient =>
    exact ⟨hcounted, honce, fun d hd => hnone d (notSent_of_update hd fun _ h => by cases h)⟩
  | @sendTimeOut c uid hash hclient =>
    -- a time-out carries no channel
    have hsame : ∀ d, ({ s with
        sdkRx := s.sdkRx ++ [.timeOut uid hash]
        clients := update s.clients c (some ⟨uid, hash, .timedOut⟩) } : NetworkTask K).held d =
          s.held d := by
      intro d
      simp only [held, filterMap_append, filterMap_cons, filterMap_nil, WSCommand.channel?, append_nil]
    refine ⟨hcounted, fun d => ?_, fun d hd => ?_⟩
    · rw [hsame]
      exact honce d
    · rw [hsame]
      exact hnone d (notSent_of_update hd fun _ h => by cases h)
  | @readNew written c uid hash rest sent hup hrx hfull hnew
  | @readPending c uid hash rest element sent hrx hfull hpending =>
    exact ⟨counted_insert hcounted hfull, fun d => (held_read hrx d).trans_le (honce d),
      fun d hd => (held_read hrx d).trans (hnone d hd)⟩
  | @readTimeOut uid hash rest sent channels hrx hfull =>
    have hless : ∀ d, ({ s with
        sdkRx := rest
        cache := (s.cache.remove hash (some uid)).2
        clients := settle s.clients channels .disconnected } : NetworkTask K).held d ≤ s.held d := by
      intro d
      have hwaiting := @waiting_remove_uid _ _ s.cache hash uid d
      simp only [held, hrx, filterMap_cons, WSCommand.channel?]
      omega
    exact ⟨counted_remove_uid hcounted uid, fun d => (hless d).trans (honce d), fun d hd =>
      Nat.le_zero.1 ((hless d).trans (hnone d (notSent_of_settle (by decide) hd)).le)⟩
  | @answered hash channels message hpending =>
    -- what the element held is answered now
    have hsame : ∀ d, ({ s with
        cache := s.cache.erase hash
        clients := settle s.clients (channels.map Prod.snd) .answered
        answers := s.answers ++ channels.map Prod.snd } : NetworkTask K).held d = s.held d := by
      intro d
      have hwaiting := waiting_erase hpending d
      simp only [held, count_append]
      omega
    exact ⟨counted_erase hcounted hpending, fun d => (hsame d).symm ▸ honce d,
      fun d hd => (hsame d).trans (hnone d (notSent_of_settle (by decide) hd))⟩
  | unanswered message | lost | connected hdown => exact ⟨hcounted, honce, hnone⟩

theorem accounted_of_held (hheld : s.Held) : s.Accounted := by
  refine ⟨hheld.counted.total, hheld.counted.full, nodup_iff_count_le_one.2 fun c => ?_⟩
  have honce := hheld.once c
  unfold held at honce
  omega

/-! ## A full list -/

/-- A full list stays full until a response comes. -/
theorem full_step (hfull : s.cache.isFull = true) (he : ¬IsResponse e) (h : s.step e = some s') :
    s'.cache.isFull = true := by
  have hnot : s.cache.isFull ≠ false := by
    rw [hfull]
    exact Bool.noConfusion
  cases stepped_of_step h with
  | resolve uid hash hclient => exact hfull
  | send hclient => exact hfull
  | expire hclient => exact hfull
  | sendTimeOut hclient => exact hfull
  | readNew sent hup hrx hnotFull hnew | readPending sent hrx hnotFull hpending
  | readTimeOut sent channels hrx hnotFull => exact absurd hnotFull hnot
  | answered message hpending | unanswered message => exact absurd ⟨message, rfl⟩ he
  | lost => exact hfull
  | connected hdown => exact hfull

variable {es : List (Event K)}

theorem full_run (hfull : s.cache.isFull = true) (hes : ∀ e ∈ es, ¬IsResponse e) (h : s.run es = some s') :
    s'.cache.isFull = true := by
  induction es generalizing s with
  | nil =>
    cases h
    exact hfull
  | cons e es ih =>
    obtain ⟨t, hstep, hrun⟩ := bind_eq_some_iff.1 h
    exact ih (full_step hfull (hes e mem_cons_self) hstep) (fun e he => hes e (mem_cons_of_mem _ he)) hrun

theorem not_readsAgain_of_full (hfull : s.cache.isFull = true) : ¬s.ReadsAgain := by
  rintro ⟨es, t, hes, hrun, c, uid, hash, rest, hrx, hread⟩
  have ht := full_run hfull hes hrun
  have hnone : t.step (.read true) = none := by
    simp only [step, hrx, ht]
    split
    · rfl
    · rfl
  rw [hnone] at hread
  cases hread

theorem recovers_iff :
    (s.cache.isFull = true → s.AllTimedOut → s.ReadsAgain) ↔ ¬(s.cache.isFull = true ∧ s.AllTimedOut) := by
  constructor
  · rintro h ⟨hfull, hall⟩
    exact not_readsAgain_of_full hfull (h hfull hall)
  · exact fun h hfull hall => absurd ⟨hfull, hall⟩ h

/-! ## Pending hashes -/

variable {hash : K}

theorem mem_keys_iff : hash ∈ s.cache.list.keys ↔ ∃ element, s.cache.list.get? hash = some element := by
  rw [OrdMap.mem_keys]
  exact exists_congr fun element => get?_eq_some_iff.symm

theorem written_of_subset (hwritten : s.Written) (hconnection : s'.connection = s.connection)
    (hkeys : ∀ hash ∈ s'.cache.list.keys, hash ∈ s.cache.list.keys) : s'.Written := by
  intro hash hmem
  rw [hconnection]
  exact hwritten hash (hkeys hash hmem)

theorem keys_remove_subset (cache : RequestList K) (key : K) (uid : String) :
    ∀ hash ∈ (cache.remove key (some uid)).2.list.keys, hash ∈ cache.list.keys := by
  intro hash hmem
  cases hget : cache.list.get? key with
  | none =>
    rw [remove_absent hget] at hmem
    exact hmem
  | some channels =>
    rw [remove_uid hget] at hmem
    by_cases hempty : (channels.eraseP fun entry => entry.1 = uid).isEmpty = true
    · rw [if_pos hempty] at hmem
      obtain ⟨element, helement⟩ := OrdMap.mem_keys.1 hmem
      exact OrdMap.mem_keys.2 ⟨element, (mem_erase.1 helement).1⟩
    · rw [if_neg hempty] at hmem
      rcases mem_keys_insert.1 hmem with rfl | hmem
      · exact OrdMap.mem_keys.2 ⟨channels, get?_eq_some_iff.1 hget⟩
      · exact hmem

theorem isFull_remove {cache : RequestList K} (key : K) (uid : String) (hnotFull : cache.isFull = false) :
    (cache.remove key (some uid)).2.isFull = false := by
  cases hget : cache.list.get? key with
  | none =>
    rw [remove_absent hget]
    exact hnotFull
  | some channels =>
    rw [remove_uid hget]
    show (if _ then _ else _ : RequestList K).isFull = false
    split
    · rfl
    · exact hnotFull

theorem timedOut_of_update {d : Responder}
    (hclient : d = c → client.status ≠ .expiring ∧ client.status ≠ .timedOut)
    (h : ∃ client', update s.clients c (some client) d = some client' ∧
    (client'.status = .expiring ∨ client'.status = .timedOut)) : s.TimedOut d := by
  obtain ⟨client', hget, hstatus⟩ := h
  by_cases hd : d = c
  · rw [hd, update_self] at hget
    cases hget
    obtain ⟨hexpiring, htimedOut⟩ := hclient hd
    rcases hstatus with hstatus | hstatus
    · exact absurd hstatus hexpiring
    · exact absurd hstatus htimedOut
  · rw [update_of_ne hd] at hget
    exact ⟨client', hget, hstatus⟩

/-! ## What keeps the promise -/

theorem allTimedOut_of_insert {uid : String} (hnew : s.cache.list.get? hash = none)
    (h : ∀ e ∈ (s.cache.insert hash uid c).2.list.entries, ∀ entry ∈ e.2, s.TimedOut entry.2) :
    s.AllTimedOut ∧ s.TimedOut c := by
  rw [insert_new hnew] at h
  refine ⟨fun e he => h e (mem_insert.2 (.inr ⟨he, ?_⟩)), ?_⟩
  · rintro rfl
    have hsome := get?_eq_some_iff.2 he
    rw [hnew] at hsome
    cases hsome
  · exact h (hash, [(uid, c)]) (mem_insert.2 (.inl rfl)) (uid, c) mem_cons_self

theorem isFull_insert_new (hheld : s.Held) {uid : String} (hnew : s.cache.list.get? hash = none)
    (hnotFull : s.cache.isFull = false) :
    (s.cache.insert hash uid c).2.isFull = true ↔ s.cache.totalCount = s.cache.limitCount := by
  have hcounted := @counted_insert _ _ s.cache hash uid c hheld.counted hnotFull
  have hbound : ¬s.cache.limitCount < s.cache.totalCount := by
    rw [← hheld.counted.full]
    show ¬s.cache.isFull = true
    rw [hnotFull]
    exact Bool.false_ne_true
  have hfull := hcounted.full
  rw [insert_new hnew] at hfull ⊢
  refine hfull.trans ?_
  show s.cache.limitCount < s.cache.totalCount + 1 ↔ _
  omega

/-- A step that meets the conditions strands no hash. -/
theorem kept_step (hheld : s.Held) (hkept : s.Kept) (hmeets : s.Meets e) (h : s.step e = some s') : s'.Kept := by
  obtain ⟨hwritten, hrecovers⟩ := hkept
  rw [recovers_iff] at hrecovers
  -- what is cached was written; the clients of a full cache have not all timed out
  refine ⟨?_, recovers_iff.2 ?_⟩
  · cases stepped_of_step h with
    | resolve uid hash hclient => exact hwritten
    | send hclient => exact hwritten
    | expire hclient => exact hwritten
    | sendTimeOut hclient => exact hwritten
    | @readNew written c uid hash rest sent hup hrx hnotFull hnew =>
      obtain ⟨rfl, -⟩ := hmeets c uid hash rest hrx hnew
      rw [insert_new hnew]
      intro k hk
      refine ⟨_, rfl, ?_⟩
      rw [if_pos rfl]
      by_cases hkh : k = hash
      · exact mem_cons.2 (.inl hkh)
      · rcases mem_keys_insert.1 hk with hk | hk
        · exact absurd hk hkh
        · obtain ⟨written', hup', hmem⟩ := hwritten k hk
          obtain rfl := Connection.up.inj (hup.symm.trans hup')
          exact mem_cons_of_mem _ (mem_filter.2 ⟨hmem, decide_eq_true hkh⟩)
    | readPending sent hrx hnotFull hpending =>
      rw [insert_pending hpending]
      refine written_of_subset hwritten rfl fun k hk => ?_
      rcases mem_keys_insert.1 hk with rfl | hk
      · exact mem_keys_iff.2 ⟨_, hpending⟩
      · exact hk
    | readTimeOut sent channels hrx hnotFull => exact written_of_subset hwritten rfl (keys_remove_subset _ _ _)
    | answered message hpending =>
      refine written_of_subset hwritten rfl fun k hk => ?_
      obtain ⟨element, helement⟩ := OrdMap.mem_keys.1 hk
      exact OrdMap.mem_keys.2 ⟨element, (mem_erase.1 helement).1⟩
    | unanswered message => exact hwritten
    | lost =>
      intro k hk
      -- a connection is lost while nothing is cached
      have hempty : s.cache.list.entries = [] := hmeets
      obtain ⟨element, helement⟩ := OrdMap.mem_keys.1 hk
      rw [hempty] at helement
      cases helement
    | connected hdown =>
      intro k hk
      obtain ⟨written, hup, -⟩ := hwritten k hk
      rw [hdown] at hup
      cases hup
  · rintro ⟨hfull, hall⟩
    cases stepped_of_step h with
    | @resolve c uid hash hclient | @send c uid hash hclient =>
      exact hrecovers ⟨hfull, fun e he entry hentry =>
        timedOut_of_update (fun _ => ⟨Status.noConfusion, Status.noConfusion⟩) (hall e he entry hentry)⟩
    | @expire c uid hash hclient =>
      refine hmeets ⟨hfull, fun e he entry hentry hne => ?_⟩
      exact timedOut_of_update (fun h => absurd h hne) (hall e he entry hentry)
    | @sendTimeOut c uid hash hclient =>
      refine hrecovers ⟨hfull, fun e he entry hentry => ?_⟩
      by_cases hc : entry.2 = c
      · exact ⟨⟨uid, hash, .expiring⟩, by rw [hc, hclient], .inl rfl⟩
      · exact timedOut_of_update (fun h => absurd h hc) (hall e he entry hentry)
    | @readNew written c uid hash rest sent hup hrx hnotFull hnew =>
      exact (hmeets c uid hash rest hrx hnew).2
        ⟨(isFull_insert_new hheld hnew hnotFull).1 hfull, allTimedOut_of_insert hnew hall⟩
    | readPending sent hrx hnotFull hpending =>
      rw [insert_pending hpending] at hfull
      exact absurd (hnotFull.symm.trans hfull) Bool.false_ne_true
    | readTimeOut sent channels hrx hnotFull =>
      exact absurd ((isFull_remove _ _ hnotFull).symm.trans hfull) Bool.false_ne_true
    | answered message hpending => exact absurd hfull Bool.false_ne_true
    | unanswered message | lost | connected hdown => exact hrecovers ⟨hfull, hall⟩

theorem meets_of_kept (hheld : s.Held) (hkept' : s'.Kept) (h : s.step e = some s') : s.Meets e := by
  obtain ⟨hwritten, hrecovers⟩ := hkept'
  rw [recovers_iff] at hrecovers
  cases stepped_of_step h with
  | @readNew written c uid hash rest sent hup hrx hnotFull hnew =>
    intro c' uid' hash' rest' hrx' hnew'
    obtain ⟨⟨rfl, rfl, rfl⟩, rfl⟩ : (c = c' ∧ uid = uid' ∧ hash = hash') ∧ rest = rest' := by
      simpa using hrx.symm.trans hrx'
    refine ⟨?_, ?_⟩
    · rw [insert_new hnew] at hwritten
      obtain ⟨written', hup', hmem⟩ := hwritten hash (mem_keys_insert.2 (.inl rfl))
      obtain rfl := Connection.up.inj hup'
      cases sent with
      | true => rfl
      | false =>
        rw [if_neg Bool.false_ne_true] at hmem
        exact absurd rfl (of_decide_eq_true (mem_filter.1 hmem).2)
    · rintro ⟨htotal, hall, hc⟩
      refine hrecovers ⟨(isFull_insert_new hheld hnew hnotFull).2 htotal, ?_⟩
      intro e he entry hentry
      rw [insert_new hnew] at he
      rcases mem_insert.1 he with rfl | ⟨he, -⟩
      · obtain rfl := mem_singleton.1 hentry
        exact hc
      · exact hall e he entry hentry
  | @readPending c uid hash rest element sent hrx hnotFull hpending =>
    intro c' uid' hash' rest' hrx' hnew'
    obtain ⟨⟨rfl, rfl, rfl⟩, rfl⟩ : (c = c' ∧ uid = uid' ∧ hash = hash') ∧ rest = rest' := by
      simpa using hrx.symm.trans hrx'
    rw [hpending] at hnew'
    cases hnew'
  | readTimeOut sent channels hrx hnotFull =>
    intro c' uid' hash' rest' hrx' hnew'
    rw [hrx] at hrx'
    cases hrx'
  | @expire c uid hash hclient =>
    rintro ⟨hfull, hothers⟩
    refine hrecovers ⟨hfull, fun e he entry hentry => ?_⟩
    by_cases hc : entry.2 = c
    · exact ⟨⟨uid, hash, .expiring⟩, by show update _ _ _ _ = _; rw [hc, update_self], .inl rfl⟩
    · obtain ⟨client, hget, hstatus⟩ := hothers e he entry hentry hc
      exact ⟨client, by show update _ _ _ _ = _; rw [update_of_ne hc, hget], hstatus⟩
  | lost =>
    refine eq_nil_iff_forall_not_mem.2 fun e he => ?_
    obtain ⟨written, hup, -⟩ := hwritten e.1 (OrdMap.mem_keys.2 ⟨e.2, he⟩)
    cases hup
  | resolve uid hash hclient => trivial
  | send hclient => trivial
  | sendTimeOut hclient => trivial
  | answered message hpending => trivial
  | unanswered message => trivial
  | connected hdown => trivial

/-! ## Runs -/

theorem kept_start (limitCount : ℕ) : (start limitCount : NetworkTask K).Kept := by
  refine ⟨fun hash hmem => ?_, recovers_iff.2 fun h => ?_⟩
  · obtain ⟨element, helement⟩ := OrdMap.mem_keys.1 hmem
    cases helement
  · exact absurd h.1 Bool.false_ne_true

theorem held_run (hheld : s.Held) (h : s.run es = some s') : s'.Held := by
  induction es generalizing s with
  | nil =>
    cases h
    exact hheld
  | cons e es ih =>
    obtain ⟨t, hstep, hrun⟩ := bind_eq_some_iff.1 h
    exact ih (held_step hheld hstep) hrun

/-- Over a run no hash is stranded if and only if every step meets them. -/
theorem kept_run_iff (hheld : s.Held) (hkept : s.Kept) (h : s.run es = some s') :
    (∀ n t, s.run (es.take n) = some t → t.Kept) ↔ ∀ n t e, s.run (es.take n) = some t → es[n]? = some e →
    t.Meets e := by
  induction es generalizing s with
  | nil =>
    refine iff_of_true (fun n t ht => ?_) (fun n t e _ he => ?_)
    · rw [take_nil] at ht
      cases ht
      exact hkept
    · rw [getElem?_nil] at he
      cases he
  | cons e es ih =>
    obtain ⟨t₁, hstep, hrun⟩ := bind_eq_some_iff.1 h
    have htake : ∀ n, s.run ((e :: es).take (n + 1)) = t₁.run (es.take n) := by
      intro n
      rw [take_succ_cons, run, hstep]
      rfl
    have hzero : t₁.run (es.take 0) = some t₁ := rfl
    have hheld₁ := held_step hheld hstep
    constructor
    · intro hall n t e' ht he'
      have hkept₁ : t₁.Kept := hall 1 t₁ ((htake 0).trans hzero)
      cases n with
      | zero =>
        cases ht
        cases he'
        exact meets_of_kept hheld hkept₁ hstep
      | succ n =>
        rw [htake] at ht
        exact (ih hheld₁ hkept₁ hrun).1 (fun m t ht => hall (m + 1) t ((htake m).trans ht)) n t e' ht he'
    · intro hmeets n t ht
      have hkept₁ := kept_step hheld hkept (hmeets 0 s e rfl rfl) hstep
      cases n with
      | zero =>
        cases ht
        exact hkept
      | succ n =>
        rw [htake] at ht
        exact (ih hheld₁ hkept₁ hrun).2 (fun m t e' ht he' => hmeets (m + 1) t e' ((htake m).trans ht) he') n t ht

/-- In every run the counts are right and no client is answered twice. No hash is stranded and the list never stays
full, in every state of the run, exactly where each step meets the condition. -/
theorem networkTask_kept_iff {limitCount : ℕ} {es : List (Event K)} (h : (start limitCount).run es = some s) :
    (∀ n t, (start limitCount).run (es.take n) = some t → t.Accounted) ∧
    ((∀ n t, (start limitCount).run (es.take n) = some t → t.Kept) ↔
      ∀ n t e, (start limitCount).run (es.take n) = some t → es[n]? = some e → t.Meets e) :=
  ⟨fun _ _ ht => accounted_of_held (held_run (held_start limitCount) ht),
    kept_run_iff (held_start limitCount) (kept_start limitCount) h⟩

theorem not_written {written : List K} (hup : s.connection = .up written) (hkeys : hash ∈ s.cache.list.keys)
    (hmem : hash ∉ written) : ¬s.Written := by
  intro hwritten
  obtain ⟨written', hup', hmem'⟩ := hwritten hash hkeys
  obtain rfl := Connection.up.inj (hup.symm.trans hup')
  exact hmem hmem'

/-- Two requests fill a list for one and time out; a write fails and a second client joins the hash; the connection is
made anew under a pending hash. -/
theorem networkTask_strands :
    (∃ s, (start 1 : NetworkTask ℕ).run [.resolve 0 "a" 0, .resolve 1 "b" 1, .send 0, .send 1, .read true,
      .read true, .expire 0, .expire 1, .sendTimeOut 0, .sendTimeOut 1] = some s ∧
      s.cache.isFull = true ∧ s.AllTimedOut ∧ ¬s.ReadsAgain) ∧
    (∃ s, (start 1 : NetworkTask ℕ).run [.resolve 0 "a" 0, .send 0, .read false, .resolve 1 "b" 0, .send 1,
      .read true] = some s ∧ ¬s.Written) ∧
    ∃ s, (start 1 : NetworkTask ℕ).run [.resolve 0 "a" 0, .send 0, .read true, .lost, .connected] = some s ∧
      ¬s.Written := by
  refine ⟨?_, ?_, ?_⟩
  · have hrun : ((start 1 : NetworkTask ℕ).run [.resolve 0 "a" 0, .resolve 1 "b" 1, .send 0, .send 1, .read true,
        .read true, .expire 0, .expire 1, .sendTimeOut 0, .sendTimeOut 1]).map (fun s => (s.cache.isFull,
          s.cache.list.entries, (s.clients 0).map Client.status, (s.clients 1).map Client.status)) =
        some (true, [(0, [("a", 0)]), (1, [("b", 1)])], some .timedOut, some .timedOut) := rfl
    obtain ⟨s, hs, hfields⟩ := map_eq_some_iff.1 hrun
    obtain ⟨hfull, hentries, h0, h1⟩ := by simpa only [Prod.mk.injEq] using hfields
    refine ⟨s, hs, hfull, ?_, not_readsAgain_of_full hfull⟩
    obtain ⟨client₀, hclient₀, hstatus₀⟩ := map_eq_some_iff.1 h0
    obtain ⟨client₁, hclient₁, hstatus₁⟩ := map_eq_some_iff.1 h1
    intro e he entry hentry
    rw [hentries] at he
    rcases mem_cons.1 he with rfl | he
    · obtain rfl := mem_singleton.1 hentry
      exact ⟨client₀, hclient₀, .inr hstatus₀⟩
    · obtain rfl := mem_singleton.1 he
      obtain rfl := mem_singleton.1 hentry
      exact ⟨client₁, hclient₁, .inr hstatus₁⟩
  · have hrun : ((start 1 : NetworkTask ℕ).run [.resolve 0 "a" 0, .send 0, .read false, .resolve 1 "b" 0, .send 1,
        .read true]).map (fun s => (s.cache.list.keys, s.connection)) = some ([0], .up []) := by decide
    obtain ⟨s, hs, hfields⟩ := map_eq_some_iff.1 hrun
    obtain ⟨hkeys, hup⟩ := Prod.mk.inj hfields
    exact ⟨s, hs, not_written hup (by rw [hkeys]; exact mem_singleton.2 rfl) not_mem_nil⟩
  · have hrun : ((start 1 : NetworkTask ℕ).run [.resolve 0 "a" 0, .send 0, .read true, .lost, .connected]).map
        (fun s => (s.cache.list.keys, s.connection)) = some ([0], .up []) := by decide
    obtain ⟨s, hs, hfields⟩ := map_eq_some_iff.1 hrun
    obtain ⟨hkeys, hup⟩ := Prod.mk.inj hfields
    exact ⟨s, hs, not_written hup (by rw [hkeys]; exact mem_singleton.2 rfl) not_mem_nil⟩

/-- Two clients ask for one hash and a third for another; both hashes are written and answered. -/
theorem networkTask_kept_answered :
    let es : List (Event ℕ) := [.resolve 0 "a" 0, .resolve 1 "b" 0, .resolve 2 "c" 1, .send 0, .send 1, .send 2,
      .read true, .read true, .read true, .receive (.response 0), .receive (.response 1)]
    ((start 4).run es).map NetworkTask.answers = some [0, 1, 2] ∧
    ∀ n t, (start 4).run (es.take n) = some t → t.Kept := by
  intro es
  have hanswers : ((start 4).run es).map NetworkTask.answers = some [0, 1, 2] := by decide
  obtain ⟨s, hs, -⟩ := Option.map_eq_some_iff.1 hanswers
  have hroom {t : NetworkTask ℕ} {n : ℕ} (ht : some (n, 4) = some (t.cache.totalCount, t.cache.limitCount))
      (hn : n < 4) : t.Meets (.read true) := by
    obtain ⟨rfl, hlimit⟩ := Prod.mk.inj (Option.some_inj.1 ht)
    exact fun c uid hash rest hrx hnew => ⟨rfl, fun h => (hlimit ▸ hn).ne h.1⟩
  refine ⟨hanswers, (networkTask_kept_iff hs).2.2 fun n t e ht he => ?_⟩
  have hcounts := congrArg (Option.map fun s : NetworkTask ℕ => (s.cache.totalCount, s.cache.limitCount)) ht
  rcases n with _ | _ | _ | _ | _ | _ | _ | _ | _ | _ | _ | n <;> cases he
  all_goals first | trivial | exact hroom hcounts (by decide)

end NetworkTask

end AffinidiTdk.Resolver
