/-
Agreement of the two stores on sessions. The methods that the in-memory store inherits make sessions up where
none is found and start their day anew, the embedded store's own ones take the record as it is and keep the
expiry; on the steps where that makes no difference the two stay in correspondence.
-/
import AffinidiTdk.Auth.FjallSessions

namespace AffinidiTdk.Auth

open Function Option Session
open Acl Store Program
open Bytes (ofString)

variable {digest : String → String} {b : Backends}

/-! ## What is compared -/

/-- The fields of a session that are compared. -/
structure SessionView where
  did : String
  state : SessionState
  authenticated : Bool
  challenge : String
  refreshTokenHash : Option String
  acls : MediatorACLSet
  accountType : AccountType
  deriving DecidableEq

def Session.view (s : Session) : SessionView :=
  ⟨s.did, s.state, s.authenticated, s.challenge, s.refreshTokenHash, s.acls, s.accountType⟩

/-- Every lookup succeeds in both stores or in none, and then shows the same session. -/
def SessionsAgree (digest : String → String) (b : Backends) : Prop :=
  ∀ sessionId did, (b.memory.getSession digest sessionId did).1.toOption.map Session.view =
    (b.fjall.getSession digest sessionId did).1.toOption.map Session.view

/-- No session is new, and none has another expiry than before. -/
def KeepsExpiries (before after : Backends) : Prop :=
  (∀ id record, after.memory.sessions.get id = some record →
    ∃ old, before.memory.sessions.get id = some old ∧ old.expiresAt = record.expiresAt) ∧
  ∀ id stored, after.fjall.sessions id = some stored →
    ∃ old, before.fjall.sessions id = some old ∧ old.expiresAtUnix = stored.expiresAtUnix

/-- A rotation of a refresh hash makes no session and leaves the expiries alone, in both stores. -/
def RotatesSafely (digest : String → String) (b : Backends) : SessionOp → Prop
  | .rotate sessionId hash => KeepsExpiries b (b.after digest (.rotate sessionId hash))
  | _ => True

/-- In every state of the run the stores agree, and every rotation on the way is safe. -/
def AgreesThroughout (digest : String → String) : List SessionOp → Backends → Prop
  | [], b => SessionsAgree digest b
  | op :: ops, b => SessionsAgree digest b ∧ RotatesSafely digest b op ∧
      AgreesThroughout digest ops (b.after digest op)

/-! ## The steps that make no difference -/

/-- A write with this time to live has its expiry on a whole second, not at the epoch, and in the range of an
instant. -/
def WholeSecond (now ttl : ℕ) : Prop :=
  now % 10 ^ 9 = 0 ∧ ttl % 10 ^ 9 = 0 ∧ 0 < now + ttl ∧ now + ttl < instantRange

/-- Sessions are written at whole seconds; only a session that has not lapsed is renamed, and it has the ACL and
the role of the account already; the hash of a session is rotated only when it has exactly a day left. -/
def Harmless (digest : String → String) (b : Backends) : SessionOp → Prop
  | .put _ ttl => WholeSecond b.memory.instant ttl
  | .authenticate oldSessionId _ did _ =>
    WholeSecond b.memory.instant (86400 * 10 ^ 9) ∧ ∀ record, b.memory.sessions.get oldSessionId = some record →
      b.memory.instant < record.expiresAt ∧ (b.memory.shown digest record did).view = record.session.view
  | .rotate sessionId _ => ∃ record, b.memory.sessions.get sessionId = some record ∧
      record.expiresAt = b.memory.instant + 86400 * 10 ^ 9
  | .get _ _ | .delete _ | .refreshHash _ | .advance _ => True

def EveryStep (C : Backends → SessionOp → Prop) (digest : String → String) : List SessionOp → Backends → Prop
  | [], _ => True
  | op :: ops, b => C b op ∧ EveryStep C digest ops (b.after digest op)

/-! ## Correspondence -/

/-- The accounts are the same as far as a session takes from them. -/
def SameAccounts (b : Backends) : Prop :=
  ∀ didHash, (b.memory.store.accounts didHash).map (fun account => (account.acls, account.role)) =
    (b.fjall.store.accounts.get? (ofString didHash)).map fun account => (.fromU64 account.acls, account.role)

/-- The two records of a session. -/
structure SameRecord (record : SessionRecord) (stored : StoredSession) : Prop where
  view : record.session.view = stored.session.view
  expiry : record.expiresAt = stored.expiresAtUnix * 10 ^ 9
  expires : 0 < stored.expiresAtUnix

/-- The stores are on one clock, have the same accounts, and the same sessions under every id. -/
structure Correspond (b : Backends) : Prop where
  clock : b.memory.instant = b.fjall.unixNanos
  accounts : SameAccounts b
  sessions : ∀ id, Option.Rel SameRecord (b.memory.sessions.get id) (b.fjall.sessions id)

/-- Two stores without sessions. -/
structure Fresh (b : Backends) : Prop where
  clock : b.memory.instant = b.fjall.unixNanos
  accounts : SameAccounts b
  memory : ∀ id, b.memory.sessions.get id = none
  fjall : ∀ id, b.fjall.sessions id = none

theorem Fresh.correspond (h : Fresh b) : Correspond b := by
  refine ⟨h.clock, h.accounts, fun id => ?_⟩
  rw [h.memory id, h.fjall id]
  exact .none

theorem rel_update {m : String → Option SessionRecord} {f : String → Option StoredSession} {x : Option SessionRecord}
    {y : Option StoredSession} (h : ∀ id, Option.Rel SameRecord (m id) (f id)) (key : String)
    (hxy : Option.Rel SameRecord x y) (id : String) :
    Option.Rel SameRecord (update m key x id) (update f key y id) := by
  by_cases hid : id = key
  · rw [hid, update_self, update_self]
    exact hxy
  · rw [update_of_ne hid, update_of_ne hid]
    exact h id

variable {record : SessionRecord}

theorem lapsed_iff {stored : StoredSession} (h : SameRecord record stored) (now : ℕ) : record.expiresAt ≤ now ↔ 0 <
    stored.expiresAtUnix ∧ stored.expiresAtUnix ≤ now / 10 ^ 9 := by
  have hexpiry := h.expiry
  have hpos := h.expires
  omega

variable {session session' : Session}

theorem view_join (h : session.view = session'.view) (hb : SameAccounts b) (didHash : String) :
    (session.join (b.memory.store.accounts didHash)).view =
    (FjallSessions.joinStored session' (b.fjall.store.accounts.get? (ofString didHash))).view := by
  have haccount := hb didHash
  cases hmem : b.memory.store.accounts didHash with
  | none =>
    rw [hmem, map_none, eq_comm, map_eq_none_iff] at haccount
    rw [haccount]
    exact h
  | some account =>
    rw [hmem, map_some, eq_comm, map_eq_some_iff] at haccount
    obtain ⟨account', hfj, heq⟩ := haccount
    rw [hfj]
    simp only [Prod.mk.injEq] at heq
    simp only [Session.view, SessionView.mk.injEq] at h
    simp only [Session.join, FjallSessions.joinStored, Session.view, h, heq]

/-- A lookup in corresponding stores: both find nothing and drop at most that session, or both find it, with the
same view. -/
theorem getSession_correspond (h : Correspond b) (sessionId did : String) :
    (b.memory.getSession digest sessionId did).1.toOption.map view =
        (b.fjall.getSession digest sessionId did).1.toOption.map view ∧
      Correspond ⟨(b.memory.getSession digest sessionId did).2, (b.fjall.getSession digest sessionId did).2⟩ := by
  have hsession := h.sessions sessionId
  unfold AuthState.getSession AuthState.getSessionRecord FjallSessions.getSession
  cases hmem : b.memory.sessions.get sessionId with
  | none =>
    rw [hmem] at hsession
    cases hfj : b.fjall.sessions sessionId with
    | none => exact ⟨rfl, h⟩
    | some stored =>
      rw [hfj] at hsession
      cases hsession
  | some record =>
    rw [hmem] at hsession
    cases hfj : b.fjall.sessions sessionId with
    | none =>
      rw [hfj] at hsession
      cases hsession
    | some stored =>
      rw [hfj] at hsession
      obtain ⟨hsame⟩ := hsession
      have hlapsed := lapsed_iff hsame b.memory.instant
      by_cases hlive : record.expiresAt ≤ b.memory.instant
      · have hstored : 0 < stored.expiresAtUnix ∧ stored.expiresAtUnix ≤ b.fjall.unixSecs := by
          rw [FjallSessions.unixSecs, ← h.clock]
          exact hlapsed.1 hlive
        simp only [hlive, if_true, hstored, and_self]
        exact ⟨rfl, h.clock, h.accounts, rel_update h.sessions sessionId .none⟩
      · have hstored : ¬(0 < stored.expiresAtUnix ∧ stored.expiresAtUnix ≤ b.fjall.unixSecs) := by
          rw [FjallSessions.unixSecs, ← h.clock]
          exact fun hle => hlive (hlapsed.2 hle)
        simp only [hlive, if_false, hstored]
        refine ⟨?_, h⟩
        by_cases hdid : did.isEmpty = true
        · simp only [hdid, if_true, Except.toOption, map_some]
          exact congrArg some hsame.view
        · have hview : record.session.view = view { stored.session with sessionId } := hsame.view
          simp only [hdid, Bool.false_eq_true, if_false, Except.toOption, map_some]
          exact congrArg some (view_join hview h.accounts (digest did))

/-- Corresponding backends answer every lookup alike. -/
theorem Correspond.agree (h : Correspond b) : SessionsAgree digest b := fun sessionId did =>
  (getSession_correspond h sessionId did).1

/-! ## One step -/

theorem wholeSecond_expiry {now ttl : ℕ} (h : WholeSecond now ttl) :
    now + ttl = saturatingAddU64 (now / 10 ^ 9) (ttl / 10 ^ 9) * 10 ^ 9 ∧
      0 < saturatingAddU64 (now / 10 ^ 9) (ttl / 10 ^ 9) := by
  obtain ⟨hnow, httl, hpos, hrange⟩ := h
  have hsum : now / 10 ^ 9 + ttl / 10 ^ 9 < 2 ^ 64 - 1 := by
    unfold instantRange at hrange
    omega
  rw [saturatingAddU64, min_eq_left hsum.le]
  omega

/-- Promotion shows the same of sessions that show the same. -/
theorem view_promote (h : session.view = session'.view) (id id' did hash : String) :
    (session.promote digest id did hash).view = (session'.promote digest id' did hash).view := by
  simp only [view, SessionView.mk.injEq] at h
  obtain ⟨hdid, -, -, hchallenge, -, hacls, htype⟩ := h
  unfold promote
  dsimp only
  rw [hdid]
  split_ifs <;> simp [view, hchallenge, hacls, htype]

@[simp] theorem promote_sessionId (session : Session) (id did hash : String) :
    (session.promote digest id did hash).sessionId = id := by
  unfold promote
  dsimp only
  split_ifs <;> rfl

variable {st : AuthState}

theorem sessions_authenticate {oldSessionId did : String} {found : Except MediatorError Session}
    (hfound : st.getSession digest oldSessionId did = (found, st)) (newSessionId hash : String) :
    let blank : Session := { sessionId := newSessionId, did, didHash := digest did }
    let session := (found.toOption.getD blank).promote digest newSessionId did hash
    let next := st.afterOp digest (.authenticate oldSessionId newSessionId did hash)
    next.sessions.get = update
        (if oldSessionId = newSessionId then st.sessions.get else update st.sessions.get oldSessionId none)
        newSessionId (some ⟨session, st.instant + 86400 * 10 ^ 9⟩) ∧
      next.instant = st.instant ∧ next.store.accounts = st.store.accounts := by
  intro blank session next
  have hkey : session.sessionId = newSessionId := promote_sessionId _ _ _ _
  have hnext : next = (run (memoryStore digest)
    (updateSessionAuthenticated digest oldSessionId newSessionId did hash) st).2 :=
    rfl
  unfold updateSessionAuthenticated at hnext
  rw [run_bind, run_attempt] at hnext
  simp only [memoryStore, hfound] at hnext
  by_cases hid : oldSessionId = newSessionId
  · simp only [hid, ne_eq, not_true, if_false, run_bind, run_perform, memoryStore] at hnext
    rw [hnext, if_pos hid]
    refine ⟨?_, rfl, rfl⟩
    show update st.sessions.get session.sessionId (some ⟨session, st.instant + 86400 * 10 ^ 9⟩) = _
    rw [hkey]
  · simp only [hid, ne_eq, not_false_eq_true, if_true, run_bind, run_perform, memoryStore] at hnext
    rw [hnext, if_neg hid]
    refine ⟨?_, rfl, rfl⟩
    show update (update st.sessions.get oldSessionId none) session.sessionId
      (some ⟨session, st.instant + 86400 * 10 ^ 9⟩) = _
    rw [hkey]

/-- The sessions of the embedded store after a promotion: the old key is removed last. -/
theorem fjall_authenticate (digest : String → String) (st : FjallSessions)
    (oldSessionId newSessionId did hash : String) :
    let stored := (st.sessions oldSessionId).getD ⟨{ did, didHash := digest did }, 0⟩
    let next := st.after digest (.authenticate oldSessionId newSessionId did hash)
    next.sessions = update
        (if oldSessionId = newSessionId then st.sessions else update st.sessions oldSessionId none)
        newSessionId (some ⟨stored.session.promote digest "" did hash, saturatingAddU64 st.unixSecs 86400⟩) ∧
      next.unixNanos = st.unixNanos ∧ next.store.accounts = st.store.accounts := by
  intro stored next
  by_cases hid : oldSessionId = newSessionId
  · subst hid
    simp only [next, FjallSessions.after, FjallSessions.updateSessionAuthenticated, ne_eq, not_true, if_false,
      if_true]
    exact ⟨rfl, rfl, rfl⟩
  · simp only [next, FjallSessions.after, FjallSessions.updateSessionAuthenticated, hid, ne_eq, not_false_eq_true,
      if_true, if_false]
    exact ⟨update_comm (Ne.symm hid) _ _ _, rfl, rfl⟩

variable {sessionId : String}

section

variable (hget : st.sessions.get sessionId = some record) (hlive : st.instant < record.expiresAt)
include hget hlive

theorem getSession_plain : st.getSession digest sessionId "" = (.ok record.session, st) :=
  getSession_eq_ok digest hget hlive ""

theorem sessions_rotate {hash : String} : let rotated : Session := { record.session with refreshTokenHash := some hash }
    st.afterOp digest (.rotate sessionId hash) = st.putSession rotated 86400 := by
  intro rotated
  show (run (memoryStore digest) (updateRefreshTokenHash sessionId hash) st).2 = _
  unfold updateRefreshTokenHash
  rw [run_bind, run_attempt]
  simp only [memoryStore, getSession_plain hget hlive]
  rfl

end

theorem correspond_put (h : Correspond b) {ttl : ℕ} (hwhole : WholeSecond b.memory.instant ttl) :
    Correspond (b.after digest (.put session ttl)) := by
  obtain ⟨hexpiry, hpos⟩ := wholeSecond_expiry hwhole
  have hmemory : b.memory.putSessionFor session ttl =
      { b.memory with sessions := b.memory.sessions.insert ⟨session, b.memory.instant + ttl⟩ } :=
    if_pos hwhole.2.2.2
  show Correspond ⟨b.memory.putSessionFor session ttl, b.fjall.putSession session ttl⟩
  rw [hmemory]
  refine ⟨h.clock, h.accounts, rel_update h.sessions session.sessionId (.some ⟨rfl, ?_, ?_⟩)⟩
  · rw [FjallSessions.unixSecs, ← h.clock]
    exact hexpiry
  · rw [FjallSessions.unixSecs, ← h.clock]
    exact hpos

theorem correspond_rotate (h : Correspond b) (hget : b.memory.sessions.get sessionId = some record)
    (hexpiry : record.expiresAt = b.memory.instant + 86400 * 10 ^ 9) (hash : String) :
    Correspond (b.after digest (.rotate sessionId hash)) := by
  have hlive : b.memory.instant < record.expiresAt := by omega
  have hsession := h.sessions sessionId
  rw [hget] at hsession
  cases hfj : b.fjall.sessions sessionId with
  | none =>
    rw [hfj] at hsession
    cases hsession
  | some stored =>
    rw [hfj] at hsession
    obtain ⟨hsame⟩ := hsession
    have hfjall : b.fjall.after digest (.rotate sessionId hash) = b.fjall.insert sessionId
        { stored with session := { stored.session with refreshTokenHash := some hash } } := by
      simp only [FjallSessions.after, FjallSessions.updateRefreshTokenHash, hfj]
    have hview : view { record.session with refreshTokenHash := some hash } =
        view { stored.session with refreshTokenHash := some hash } := by
      have hv := hsame.view
      simp only [view, SessionView.mk.injEq] at hv ⊢
      simp [hv]
    unfold Backends.after
    rw [sessions_rotate hget hlive, hfjall]
    refine ⟨h.clock, h.accounts, ?_⟩
    have hkey : record.session.sessionId = sessionId := b.memory.sessions.keyed sessionId record hget
    have hrel : SameRecord
      ⟨{ record.session with refreshTokenHash := some hash }, b.memory.instant + 86400 * 10 ^ 9⟩
        { stored with session := { stored.session with refreshTokenHash := some hash } } :=
      ⟨hview, hexpiry ▸ hsame.expiry, hsame.expires⟩
    rw [← hkey]
    exact rel_update h.sessions _ (.some hrel)

/-- What both stores promote shows the same. -/
theorem found_correspond (h : Correspond b) {oldSessionId did : String} (hlive : ∀ record,
    b.memory.sessions.get oldSessionId = some record → b.memory.instant < record.expiresAt ∧
      (b.memory.shown digest record did).view = record.session.view) (newSessionId : String) :
    ∃ found, b.memory.getSession digest oldSessionId did = (found, b.memory) ∧
      view (found.toOption.getD { sessionId := newSessionId, did, didHash := digest did }) =
        ((b.fjall.sessions oldSessionId).getD ⟨{ did, didHash := digest did }, 0⟩).session.view := by
  have hold := h.sessions oldSessionId
  cases hget : b.memory.sessions.get oldSessionId with
  | none =>
    rw [hget] at hold
    cases hfj : b.fjall.sessions oldSessionId with
    | none =>
      refine ⟨.error (.sessionError 14 oldSessionId s!"Session not found: {oldSessionId}"), ?_, rfl⟩
      unfold AuthState.getSession AuthState.getSessionRecord
      rw [hget]
    | some stored =>
      rw [hfj] at hold
      cases hold
  | some record =>
    obtain ⟨hlt, hshown⟩ := hlive record hget
    rw [hget] at hold
    cases hfj : b.fjall.sessions oldSessionId with
    | none =>
      rw [hfj] at hold
      cases hold
    | some stored =>
      rw [hfj] at hold
      obtain ⟨hsame⟩ := hold
      exact ⟨_, getSession_eq_ok digest hget hlt did, hshown.trans hsame.view⟩

theorem correspond_authenticate (h : Correspond b) {oldSessionId did : String}
    (hwhole : WholeSecond b.memory.instant (86400 * 10 ^ 9)) (hlive : ∀ record,
      b.memory.sessions.get oldSessionId = some record → b.memory.instant < record.expiresAt ∧
        (b.memory.shown digest record did).view = record.session.view) (newSessionId hash : String) :
    Correspond (b.after digest (.authenticate oldSessionId newSessionId did hash)) := by
  obtain ⟨hexpiry, hpos⟩ := wholeSecond_expiry hwhole
  obtain ⟨found, hfound, hview⟩ := found_correspond h hlive newSessionId
  obtain ⟨hsessions, hinstant, haccounts⟩ := sessions_authenticate hfound newSessionId hash
  obtain ⟨hfjall, hnanos, hstored⟩ := fjall_authenticate digest b.fjall oldSessionId newSessionId did hash
  refine ⟨hinstant.trans (h.clock.trans hnanos.symm), fun didHash => ?_, fun id => ?_⟩
  · have haccount := h.accounts didHash
    show (Option.map _ ((b.memory.afterOp digest _).store.accounts didHash)) =
      Option.map _ ((b.fjall.after digest _).store.accounts.get? (ofString didHash))
    rw [haccounts, hstored]
    exact haccount
  · show Option.Rel SameRecord
      ((b.memory.afterOp digest (.authenticate oldSessionId newSessionId did hash)).sessions.get id)
      ((b.fjall.after digest (.authenticate oldSessionId newSessionId did hash)).sessions id)
    rw [hsessions, hfjall]
    have hrel : SameRecord
        ⟨(found.toOption.getD { sessionId := newSessionId, did, didHash := digest did }).promote digest
          newSessionId did hash, b.memory.instant + 86400 * 10 ^ 9⟩
        ⟨((b.fjall.sessions oldSessionId).getD ⟨{ did, didHash := digest did }, 0⟩).session.promote digest ""
          did hash, saturatingAddU64 b.fjall.unixSecs 86400⟩ := by
      rw [FjallSessions.unixSecs, ← h.clock]
      exact ⟨view_promote hview _ _ _ _, hexpiry, hpos⟩
    refine rel_update (fun id => ?_) newSessionId (.some hrel) id
    by_cases hid : oldSessionId = newSessionId
    · rw [if_pos hid, if_pos hid]
      exact h.sessions id
    · rw [if_neg hid, if_neg hid]
      exact rel_update h.sessions oldSessionId .none id

theorem correspond_after (h : Correspond b) (op : SessionOp) (hop : Harmless digest b op) :
    Correspond (b.after digest op) := by
  cases op with
  | put session ttl => exact correspond_put h hop
  | get sessionId did => exact (getSession_correspond h sessionId did).2
  | delete sessionId => exact ⟨h.clock, h.accounts, rel_update h.sessions sessionId .none⟩
  | refreshHash sessionId => exact (getSession_correspond h sessionId "").2
  | advance nanos => exact ⟨congrArg (· + nanos) h.clock, h.accounts, h.sessions⟩
  | rotate sessionId hash =>
    obtain ⟨record, hget, hexpiry⟩ := hop
    exact correspond_rotate h hget hexpiry hash
  | authenticate oldSessionId newSessionId did hash => exact correspond_authenticate h hop.1 hop.2 newSessionId hash

/-! ## Runs -/

/-- A harmless rotation is safe: it finds the session, and writes it with the expiry it has. -/
theorem rotatesSafely_of_harmless {op : SessionOp} (hop : Harmless digest b op) : RotatesSafely digest b op := by
  cases op with
  | rotate sessionId hash =>
    obtain ⟨record, hget, hexpiry⟩ := hop
    have hlive : b.memory.instant < record.expiresAt := by omega
    have hkey : record.session.sessionId = sessionId := b.memory.sessions.keyed sessionId record hget
    refine ⟨fun id r hr => ?_, fun id stored hstored => ?_⟩
    · change (b.memory.afterOp digest (.rotate sessionId hash)).sessions.get id = some r at hr
      rw [sessions_rotate hget hlive] at hr
      change update b.memory.sessions.get record.session.sessionId _ id = some r at hr
      by_cases hid : id = record.session.sessionId
      · rw [hid, update_self] at hr
        cases hr
        exact ⟨record, by rw [hid, hkey, hget], hexpiry⟩
      · rw [update_of_ne hid] at hr
        exact ⟨r, hr, rfl⟩
    · change (b.fjall.after digest (.rotate sessionId hash)).sessions id = some stored at hstored
      cases hfj : b.fjall.sessions sessionId with
      | none =>
        simp only [FjallSessions.after, FjallSessions.updateRefreshTokenHash, hfj] at hstored
        exact ⟨stored, hstored, rfl⟩
      | some old =>
        simp only [FjallSessions.after, FjallSessions.updateRefreshTokenHash, hfj] at hstored
        change update b.fjall.sessions sessionId _ id = some stored at hstored
        by_cases hid : id = sessionId
        · rw [hid, update_self] at hstored
          cases hstored
          exact ⟨old, by rw [hid, hfj], rfl⟩
        · rw [update_of_ne hid] at hstored
          exact ⟨stored, hstored, rfl⟩
  | _ => trivial

theorem Correspond.agreesThroughout (h : Correspond b) {ops : List SessionOp}
    (hops : EveryStep (Harmless digest) digest ops b) : AgreesThroughout digest ops b := by
  induction ops generalizing b with
  | nil => exact h.agree
  | cons op ops ih =>
    obtain ⟨hop, hops⟩ := hops
    exact ⟨h.agree, rotatesSafely_of_harmless hop, ih (correspond_after h op hop) hops⟩

/-- **Agreement on sessions**: from stores without sessions, a run whose steps are all harmless keeps the two
stores in agreement, and its rotations are safe. -/
theorem agreesThroughout_of_harmless (hfresh : Fresh b) {ops : List SessionOp}
    (hops : EveryStep (Harmless digest) digest ops b) : AgreesThroughout digest ops b :=
  hfresh.correspond.agreesThroughout hops

/-! ## A rotation of nothing -/

/-- No accounts and no sessions, at a thousand seconds. -/
def freshBackends : Backends :=
  ⟨⟨default, .empty, 1000 * 10 ^ 9, 1000⟩, ⟨default, fun _ => none, 1000 * 10 ^ 9⟩⟩

theorem freshBackends_fresh : Fresh freshBackends :=
  ⟨rfl, fun _ => rfl, fun _ => rfl, fun _ => rfl⟩

def challengeSession : Session := { sessionId := "s", challenge := "c", state := .challengeSent, did := "did:a" }

/-- A challenge, its answer, a refresh at once and a look at the hash. -/
theorem login_agrees : AgreesThroughout id
    [.put challengeSession (900 * 10 ^ 9), .advance (10 ^ 9), .authenticate "s" "t" "did:a" "h", .rotate "t" "h'",
      .refreshHash "t"] freshBackends := by
  refine agreesThroughout_of_harmless freshBackends_fresh ⟨⟨rfl, rfl, by decide, by decide⟩,
    trivial, ⟨⟨rfl, rfl, by decide, by decide⟩, ?_⟩, ?_, trivial, trivial⟩
  · intro record hrecord
    cases hrecord
    exact ⟨by decide, by decide⟩
  · exact ⟨_, rfl, rfl⟩

/-- Rotating the hash of a session that is not there makes one up in the in-memory store only. -/
theorem rotated_nothing_disagrees :
    ¬RotatesSafely id freshBackends (.rotate "s" "h") ∧
      ¬SessionsAgree id (freshBackends.after id (.rotate "s" "h")) ∧
      ¬AgreesThroughout id [.rotate "s" "h"] freshBackends := by
  have hdisagree : ¬SessionsAgree id (freshBackends.after id (.rotate "s" "h")) := fun hagree =>
    absurd (hagree "s" "") (by decide)
  refine ⟨fun hsafe => ?_, hdisagree, fun hagree => hdisagree hagree.2.2⟩
  obtain ⟨old, hold, -⟩ := hsafe.1 "s" ⟨{ sessionId := "s", refreshTokenHash := some "h" }, 87400 * 10 ^ 9⟩ rfl
  cases hold

end AffinidiTdk.Auth
