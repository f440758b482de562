/-
Queue limits a standard account sets for itself: what either path stores for a requested value, and when the comparison
that admits a forward is then bound by the hard maximum. The cap is on the upper side only, and the stored limit is read
as a `u32`.
-/
import AffinidiTdk.Mediator.Equivalence
import AffinidiTdk.Routing.Forward

namespace AffinidiTdk.Mediator

open Acl Fallible Option Routing Store Accounts

/-! ## The two queues and the two paths -/

/-- The two queues of an account. -/
inductive Queue
  | send
  | receive

namespace Queue

def selfManaged (acls : MediatorACLSet) : Queue → Bool
  | send => acls.getSelfManageSendQueueLimit
  | receive => acls.getSelfManageReceiveQueueLimit

def hard (limits : LimitsConfig) : Queue → ℤ
  | send => limits.queuedSendMessagesHard
  | receive => limits.queuedReceiveMessagesHard

def limit (record : AccountRecord) : Queue → Option ℤ
  | send => record.queueSendLimit
  | receive => record.queueReceiveLimit

/-- The send limit of a request for this queue and another one for the other. -/
def sendLimit (mine other : Option ℤ) : Queue → Option ℤ
  | send => mine
  | receive => other

def receiveLimit (mine other : Option ℤ) : Queue → Option ℤ
  | send => other
  | receive => mine

end Queue

/-- A request for a limit that is granted, by the Trust Task, whose values have 64 bits, or in a legacy message, whose
values have 32. -/
inductive Changed (state : SharedData) (session : Session) (q : Queue) (didHash : String) (v : ℤ)
    (s s' : MemoryState) : Prop
  | trustTask (framework : Framework) (senderKid : Option String) (task : TrustTask)
      (other : Option ℤ) (response : TaskResponse) (hv : -2 ^ 63 ≤ v ∧ v < 2 ^ 63)
      (h : exec (TrustTasks.consumeAccountChangeQueueLimits framework state session senderKid task didHash
        (q.sendLimit (some v) other) (q.receiveLimit (some v) other)) s = (.ok response, s'))
  | legacy (msgId : String) (senderKid : Option String) (other : Option ℤ) (response : ProcessMessageResponse)
      (hv : -2 ^ 31 ≤ v ∧ v < 2 ^ 31)
      (h : exec (Accounts.accountChangeQueueLimits state session msgId senderKid didHash
        (q.sendLimit (some v) other) (q.receiveLimit (some v) other)) s = (.ok response, s'))

/-- A forward of `incoming` messages to a queue of `queued` is admitted only below the hard maximum, and their sum is
a `u32`. -/
structure Binds (limit : Option ℤ) (soft hard : ℤ) (queued incoming : ℕ) : Prop where
  belowHard : queueAtCapacity queued incoming (limit.getD soft) false = false → (queued : ℤ) + incoming < hard
  noOverflow : queued + incoming < 2 ^ 32

/-- What a request that is negative in 32 bits still rejects: at the number its bits are as a `u32`, or, where the bits
are those of the sentinel that resets a limit, at the soft limit. -/
def RejectedAnyway (v soft : ℤ) (total : ℕ) : Prop :=
  asI32 v < -2 ∧ 2 ^ 32 + asI32 v ≤ total ∨ asI32 v = -2 ∧ soft ≠ -1 ∧ asU32 soft ≤ total

/-! ## What is stored -/

theorem asI32_of_mem {v : ℤ} (hv : -2 ^ 31 ≤ v ∧ v < 2 ^ 31) : asI32 v = v := by
  unfold asI32
  rw [Int.bmod_eq_of_le (by omega) (by omega)]

theorem asI32_mem (v : ℤ) : -2 ^ 31 ≤ asI32 v ∧ asI32 v < 2 ^ 31 := by
  unfold asI32
  have hlow := @Int.le_bmod v (2 ^ 32) (by decide)
  have hhigh := @Int.bmod_lt v (2 ^ 32) (by decide)
  omega

/-- The limit stored for a request. -/
def storedLimit (hard v : ℤ) : Option ℤ :=
  if asI32 v = -2 then none else if asI32 v = -1 then some (-1) else some (min (asI32 v) hard)

variable {state : SharedData} {session : Session} {q : Queue} {didHash : String} {v : ℤ} {s s' : MemoryState}

theorem changeLimit_gateLimit (current : Option ℤ) {hard : ℤ} (hhard : 0 ≤ hard) (v : ℤ) :
    changeLimit current (gateLimit true hard (some (asI32 v))) = storedLimit hard v := by
  unfold gateLimit storedLimit changeLimit
  simp only [if_true]
  by_cases hreset : asI32 v = -2
  · simp [hreset]
  · by_cases hnone : asI32 v = -1
    · simp [hnone]
    · by_cases hcap : asI32 v > hard
      · have hne : hard ≠ -2 := by omega
        simp [hreset, hnone, hcap, hne, min_eq_right hcap.le]
      · simp [hreset, hnone, hcap, min_eq_left (not_lt.1 hcap)]

theorem limit_of_changeQueueLimits (hself : q.selfManaged session.acls = true)
    (hhard : 0 ≤ q.hard state.config.limits) (hstandard : session.accountType = .standard) (other : Option ℤ) :
    ∃ record, (Store.accountChangeQueueLimits didHash
        (allowedLimits state session (q.sendLimit (some (asI32 v)) other)
          (q.receiveLimit (some (asI32 v)) other)).1
        (allowedLimits state session (q.sendLimit (some (asI32 v)) other)
          (q.receiveLimit (some (asI32 v)) other)).2 s).2.accounts didHash = some record ∧
      q.limit record = storedLimit (q.hard state.config.limits) v := by
  unfold Store.accountChangeQueueLimits allowedLimits
  simp only [hstandard, if_true]
  refine ⟨_, (upsertAccount_accounts s didHash _ didHash).trans (if_pos rfl), ?_⟩
  cases q with
  | send =>
    show changeLimit _ (gateLimit (Queue.selfManaged session.acls .send) _ (some (asI32 v))) = _
    rw [hself]
    exact changeLimit_gateLimit _ hhard v
  | receive =>
    show changeLimit _ (gateLimit (Queue.selfManaged session.acls .receive) _ (some (asI32 v))) = _
    rw [hself]
    exact changeLimit_gateLimit _ hhard v

theorem Changed.stored (h : Changed state session q didHash v s s') (hstandard : session.accountType = .standard)
    (hself : q.selfManaged session.acls = true) (hhard : 0 ≤ q.hard state.config.limits) :
    ∃ record, s'.accounts didHash = some record ∧ q.limit record = storedLimit (q.hard state.config.limits) v := by
  cases h with
  | trustTask framework senderKid task other response hv h =>
    obtain ⟨-, hstate⟩ := (TrustTasks.consumeAccountChangeQueueLimits_meets didHash _ _).sound _ _ h
    obtain ⟨record, hrecord, hlimit⟩ := @limit_of_changeQueueLimits state session q didHash v s hself hhard
      hstandard (other.map asI32)
    refine ⟨record, ?_, hlimit⟩
    have haccounts := congrArg (fun st : MemoryState => st.accounts didHash) hstate
    refine haccounts.trans (Eq.trans ?_ hrecord)
    show (Store.accountChangeQueueLimits didHash _ _ s).2.accounts didHash = _
    unfold TrustTasks.gatedLimits allowedLimits
    cases q with
    | send | receive => simp only [gateSelfManagedLimit_eq, Queue.sendLimit, Queue.receiveLimit, map_some]
  | legacy msgId senderKid other response hv h =>
    obtain ⟨-, hstate⟩ := (accountChangeQueueLimits_meets didHash _ _).sound _ _ h
    have hfound := @limit_of_changeQueueLimits state session q didHash v s hself hhard hstandard other
    rw [asI32_of_mem hv] at hfound
    obtain ⟨record, hrecord, hlimit⟩ := hfound
    have haccounts := congrArg (fun st : MemoryState => st.accounts didHash) hstate
    exact ⟨record, haccounts.trans hrecord, hlimit⟩

/-! ## The comparison -/

theorem asU32_of_nonneg {v : ℤ} (hv : 0 ≤ v) (hlt : v < 2 ^ 32) : asU32 v = v.toNat := by
  unfold asU32
  rw [Int.emod_eq_of_lt hv hlt]

theorem asU32_of_neg {v : ℤ} (hv : v < 0) (hge : -2 ^ 32 ≤ v) : (asU32 v : ℤ) = 2 ^ 32 + v := by
  unfold asU32
  have hmod : v % 2 ^ 32 = 2 ^ 32 + v := by
    rw [← Int.add_emod_left, Int.emod_eq_of_lt (by omega) (by omega)]
  rw [hmod]
  omega

theorem queueAtCapacity_eq_false_iff {queued incoming : ℕ} (hsum : queued + incoming < 2 ^ 32) (limit : ℤ) :
    queueAtCapacity queued incoming limit false = false ↔ limit = -1 ∨ queued + incoming < asU32 limit := by
  unfold queueAtCapacity
  rw [Nat.mod_eq_of_lt hsum]
  by_cases hlimit : limit = -1
  · simp [hlimit]
  · simp [hlimit]

theorem binds_iff {hard soft : ℤ} {queued incoming : ℕ} (hhard : 0 ≤ hard ∧ hard < 2 ^ 31) (v : ℤ) :
    Binds (storedLimit hard v) soft hard queued incoming ↔ queued + incoming < 2 ^ 32 ∧
    (0 ≤ asI32 v ∨ (queued : ℤ) + incoming < hard ∨ RejectedAnyway v soft (queued + incoming)) := by
  have hrange := asI32_mem v
  have hcompare : ∀ hsum : queued + incoming < 2 ^ 32,
      (queueAtCapacity queued incoming ((storedLimit hard v).getD soft) false = false →
        (queued : ℤ) + incoming < hard) ↔
      (0 ≤ asI32 v ∨ (queued : ℤ) + incoming < hard ∨ RejectedAnyway v soft (queued + incoming)) := by
    intro hsum
    rw [queueAtCapacity_eq_false_iff hsum]
    unfold storedLimit RejectedAnyway
    by_cases hreset : asI32 v = -2
    · -- the limit is the soft one
      rw [if_pos hreset, getD_none]
      omega
    · rw [if_neg hreset]
      by_cases hunlimited : asI32 v = -1
      · rw [if_pos hunlimited, getD_some]
        omega
      · rw [if_neg hunlimited, getD_some]
        rcases le_or_gt 0 (asI32 v) with hpos | hneg
        · -- at most the hard maximum
          have hmin : 0 ≤ min (asI32 v) hard := le_min hpos hhard.1
          have hle := min_le_right (asI32 v) hard
          rw [asU32_of_nonneg hmin (by omega)]
          omega
        · have hmin : min (asI32 v) hard = asI32 v := min_eq_left (by omega)
          have hbits := asU32_of_neg hneg (by omega)
          rw [hmin]
          omega
  constructor
  · rintro ⟨hbelow, hsum⟩
    exact ⟨hsum, (hcompare hsum).1 hbelow⟩
  · rintro ⟨hsum, hcase⟩
    exact ⟨(hcompare hsum).2 hcase, hsum⟩

/-- **A limit a standard account asks for** binds the forwards to its queue to the hard maximum exactly for these
requests, counts and numbers of messages. -/
theorem queueLimit_binds_iff {soft : ℤ} {queued incoming : ℕ} (hstandard : session.accountType = .standard)
    (hself : q.selfManaged session.acls = true)
    (hhard : 0 ≤ q.hard state.config.limits ∧ q.hard state.config.limits < 2 ^ 31)
    (h : Changed state session q didHash v s s') :
    (∃ record, s'.accounts didHash = some record ∧
      Binds (q.limit record) soft (q.hard state.config.limits) queued incoming) ↔
      queued + incoming < 2 ^ 32 ∧
        (0 ≤ asI32 v ∨ (queued : ℤ) + incoming < q.hard state.config.limits ∨
          RejectedAnyway v soft (queued + incoming)) := by
  obtain ⟨record, hrecord, hlimit⟩ := h.stored hstandard hself hhard.1
  rw [← binds_iff hhard v, ← hlimit, hrecord]
  simp only [Option.some.injEq, exists_eq_left']

/-! ## Two requests -/

/-- A standard account that manages its send limit itself. -/
def carol : Session := ⟨"s", "did:example:carol", "h:carol", .fromU64 0x20000, .standard⟩

theorem exists_changed (v : ℤ) (hv : -2 ^ 31 ≤ v ∧ v < 2 ^ 31) :
    ∃ s', Changed plainState carol .send "h:carol" v default s' := by
  obtain ⟨response, s', h⟩ := (@accountChangeQueueLimits_meets plainState carol "m" none default "h:carol"
    (some v) none).complete (by decide)
  exact ⟨s', .legacy "m" none none response hv h⟩

theorem queueLimit_binds_five :
    ∃ s', Changed plainState carol .send "h:carol" 5 default s' ∧
      ∃ record, s'.accounts "h:carol" = some record ∧ Binds (Queue.limit record .send) 50 100 3 1 := by
  obtain ⟨s', h⟩ := exists_changed 5 (by decide)
  exact ⟨s', h, (queueLimit_binds_iff rfl (by decide) (by decide) h).2 ⟨by decide, .inl (by decide)⟩⟩

/-- After a request for `-3` a queue of a hundred, the hard maximum, takes another message. -/
theorem queueLimit_minus_three :
    ∃ s', Changed plainState carol .send "h:carol" (-3) default s' ∧
      ∃ record, s'.accounts "h:carol" = some record ∧ Queue.limit record .send = some (-3) ∧
        queueAtCapacity 100 1 (-3) false = false ∧ ¬Binds (Queue.limit record .send) 50 100 100 1 := by
  obtain ⟨s', h⟩ := exists_changed (-3) (by decide)
  obtain ⟨record, hrecord, hlimit⟩ := h.stored rfl (by decide) (by decide)
  have hthree : Queue.limit record .send = some (-3) := hlimit.trans (by decide)
  have hadmitted : queueAtCapacity 100 1 (-3) false = false := by decide
  refine ⟨s', h, record, hrecord, hthree, hadmitted, fun hbinds => ?_⟩
  rw [hthree] at hbinds
  exact absurd (hbinds.belowHard hadmitted) (by decide)

end AffinidiTdk.Mediator
