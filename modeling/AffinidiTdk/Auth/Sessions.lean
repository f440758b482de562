/-
Authentication sessions (mediator-common `store/types.rs`, the session methods of
`store/memory_store.rs` and the ones the store trait derives from them). A session record lapses on
the store's own monotonic clock, in nanoseconds; the handlers read a second clock, in unix seconds.
-/
import AffinidiTdk.Lib.Program
import AffinidiTdk.Store.Memory

namespace AffinidiTdk.Auth

open Function
open Acl Store Program

/-! ## Data -/

/-- How far a session has come. -/
inductive SessionState
  | unknown
  | challengeSent
  | authenticated
  | blocked
  deriving DecidableEq

def SessionState.display : SessionState → String
  | .unknown => "Unknown"
  | .challengeSent => "ChallengeSent"
  | .authenticated => "Authenticated"
  | .blocked => "Blocked"

/-- The claims of an access or a refresh token. -/
structure SessionClaims where
  aud : String
  sub : String
  sessionId : String
  exp : ℕ
  deriving DecidableEq

/-- The record of a session. -/
structure Session where
  sessionId : String := ""
  challenge : String := ""
  state : SessionState := .unknown
  did : String := ""
  didHash : String := ""
  authenticated : Bool := false
  acls : MediatorACLSet := default
  accountType : AccountType := .standard
  expiresAt : ℕ := 0
  refreshTokenHash : Option String := none
  deriving DecidableEq

/-- A session as the memory store keeps it, with its end. -/
structure SessionRecord where
  session : Session
  expiresAt : ℕ

/-- The session map: a record is found under the id of its session. -/
structure SessionTable where
  get : String → Option SessionRecord
  keyed : ∀ id record, get id = some record → record.session.sessionId = id

namespace SessionTable

def empty : SessionTable := ⟨fun _ => none, by rintro _ _ ⟨⟩⟩

def insert (table : SessionTable) (record : SessionRecord) : SessionTable where
  get := Function.update table.get record.session.sessionId (some record)
  keyed := by
    intro id r h
    by_cases hid : id = record.session.sessionId
    · rw [hid, update_self] at h
      rw [hid, Option.some.inj h]
    · rw [update_of_ne hid] at h
      exact table.keyed id r h

def remove (table : SessionTable) (id : String) : SessionTable where
  get := Function.update table.get id none
  keyed := by
    intro id' r h
    by_cases hid : id' = id
    · rw [hid, update_self] at h
      cases h
    · rw [update_of_ne hid] at h
      exact table.keyed id' r h

variable {table : SessionTable} {record : SessionRecord}

theorem get_of_insert {new : SessionRecord} {id : String} (h : (table.insert new).get id = some record) :
    table.get id = some record ∨ record = new := by
  change update _ _ _ id = _ at h
  by_cases hid : id = new.session.sessionId
  · rw [hid, update_self] at h
    exact .inr (Option.some.inj h).symm
  · rw [update_of_ne hid] at h
    exact .inl h

theorem get_of_remove {id id' : String} (h : (table.remove id').get id = some record) :
    table.get id = some record := by
  change update _ _ _ id = _ at h
  by_cases hid : id = id'
  · rw [hid, update_self] at h
    cases h
  · rwa [update_of_ne hid] at h

end SessionTable

/-- What the authentication handlers share: the store with its sessions, and the two clocks, in nanoseconds and in
seconds. -/
structure AuthState where
  store : MemoryState
  sessions : SessionTable
  instant : ℕ
  unixSecs : ℕ

/-! ## The store's interface -/

/-- The store calls the handlers make, with the type of what each gives. -/
inductive AuthCall : Type → Type
  | unixSecs : AuthCall ℕ
  | getSession (sessionId did : String) : AuthCall Session
  | putSession (session : Session) (ttl : ℕ) : AuthCall Unit
  | deleteSession (sessionId : String) : AuthCall Unit
  | statsIncrement (key : String) (amount : ℤ) : AuthCall Unit
  | getDidAcls (dids : List String) (mediatorAclMode : AccessListModeType) : AuthCall MediatorACLGetResponse
  | accountExists (didHash : String) : AuthCall Bool
  | accountAdd (didHash : String) (acls : MediatorACLSet) : AuthCall Account

/-- The record of a session; one that has lapsed is dropped. -/
def AuthState.getSessionRecord (st : AuthState) (sessionId : String) : Option SessionRecord × AuthState :=
  match st.sessions.get sessionId with
  | some record =>
    if record.expiresAt ≤ st.instant then (none, { st with sessions := st.sessions.remove sessionId })
    else (some record, st)
  | none => (none, st)

/-- A session with the ACL and the role of an account. -/
def Session.join (session : Session) (account : Option AccountRecord) : Session :=
  match account with
  | some account => { session with acls := account.acls, accountType := account.role }
  | none => session

variable (digest : String → String)

/-- A session joined with the account of `did`, whoever's session it is. -/
def AuthState.getSession (st : AuthState) (sessionId did : String) : Except MediatorError Session × AuthState :=
  match st.getSessionRecord sessionId with
  | (some record, st) =>
    (.ok (if did.isEmpty then record.session else record.session.join (st.store.accounts (digest did))), st)
  | (none, st) => (.error (.sessionError 14 sessionId s!"Session not found: {sessionId}"), st)

/-- Write a session. The times to live are the constants of the trait's methods, a day at most, with which the sum
is an instant. -/
def AuthState.putSession (st : AuthState) (session : Session) (ttl : ℕ) : AuthState :=
  { st with sessions := st.sessions.insert ⟨session, st.instant + ttl * 10 ^ 9⟩ }

/-- A call that leaves the sessions alone. -/
def AuthState.onStore {α : Type} (st : AuthState) (op : StoreOp α) : Except MediatorError α × AuthState :=
  ((op st.store).1, { st with store := (op st.store).2 })

/-- The in-memory store's answer to a call. -/
def memoryStore {β : Type} : AuthCall β → AuthState → Except MediatorError β × AuthState
  | .unixSecs, st => (.ok st.unixSecs, st)
  | .getSession sessionId did, st => st.getSession digest sessionId did
  | .putSession session ttl, st => (.ok (), st.putSession session ttl)
  | .deleteSession sessionId, st => (.ok (), { st with sessions := st.sessions.remove sessionId })
  | .statsIncrement key amount, st => st.onStore fun store => (.ok (), store.incrCounter key amount)
  | .getDidAcls dids mediatorAclMode, st => st.onStore (getDidAcls dids mediatorAclMode)
  | .accountExists didHash, st => st.onStore (accountExists didHash)
  | .accountAdd didHash acls, st => st.onStore (accountAdd didHash acls none)

/-- A handler as a program over the store. -/
abbrev AuthRoutine := Program MediatorError AuthCall

/-! ## What a lookup does -/

variable (session : Session) (account : Option AccountRecord)

@[simp] theorem Session.join_sessionId :
    (session.join account).sessionId = session.sessionId := by
  cases account with
  | none => rfl
  | some account => rfl

@[simp] theorem Session.join_state :
    (session.join account).state = session.state := by
  cases account with
  | none => rfl
  | some account => rfl

@[simp] theorem Session.join_did :
    (session.join account).did = session.did := by
  cases account with
  | none => rfl
  | some account => rfl

@[simp] theorem Session.join_challenge :
    (session.join account).challenge = session.challenge := by
  cases account with
  | none => rfl
  | some account => rfl

/-- A session that is found, as the caller gets it. -/
def AuthState.shown (st : AuthState) (record : SessionRecord) (did : String) : Session :=
  if did.isEmpty then record.session else record.session.join (st.store.accounts (digest did))

theorem getSession_cases (st : AuthState) (sessionId did : String) :
    (∃ record, st.sessions.get sessionId = some record ∧ st.instant < record.expiresAt ∧
      st.getSession digest sessionId did = (.ok (st.shown digest record did), st)) ∨
    ∃ e st', st.getSession digest sessionId did = (.error e, st') ∧
      (st' = st ∨ st' = { st with sessions := st.sessions.remove sessionId }) := by
  unfold AuthState.getSession AuthState.getSessionRecord
  cases hget : st.sessions.get sessionId with
  | none => exact .inr ⟨_, st, rfl, .inl rfl⟩
  | some record =>
    by_cases hlapsed : record.expiresAt ≤ st.instant
    · simp only [hlapsed, if_true]
      exact .inr ⟨_, _, rfl, .inr rfl⟩
    · simp only [hlapsed, if_false]
      exact .inl ⟨record, rfl, by omega, rfl⟩

variable {st : AuthState} {sessionId : String} {record : SessionRecord}

theorem getSession_eq_ok (hget : st.sessions.get sessionId = some record) (hlive : st.instant < record.expiresAt)
    (did : String) : st.getSession digest sessionId did = (.ok (st.shown digest record did), st) := by
  unfold AuthState.getSession AuthState.getSessionRecord
  rw [hget]
  simp only [show ¬record.expiresAt ≤ st.instant by omega, if_false]
  rfl

theorem shown_sessionId (hget : st.sessions.get sessionId = some record) (did : String) :
    (st.shown digest record did).sessionId = sessionId := by
  unfold AuthState.shown
  rw [← st.sessions.keyed sessionId record hget]
  split
  · rfl
  · simp

theorem get_of_getSession {did id : String}
    (h : (st.getSession digest sessionId did).2.sessions.get id = some record) :
    st.sessions.get id = some record := by
  rcases getSession_cases digest st sessionId did with ⟨_, -, -, heq⟩ | ⟨_, st', heq, rfl | rfl⟩
  · rw [heq] at h
    exact h
  · rw [heq] at h
    exact h
  · rw [heq] at h
    exact SessionTable.get_of_remove h

/-! ## What the store trait derives -/

def createSession (session : Session) : AuthRoutine Unit := do
  perform (.putSession session 900)
  perform (.statsIncrement "SESSIONS_CREATED" 1)

/-- The session of an accepted challenge response, under its new id. -/
def Session.promote (session : Session) (newSessionId did refreshTokenHash : String) : Session :=
  let session := { session with sessionId := newSessionId }
  let session := if session.did.isEmpty then { session with did, didHash := digest did } else session
  { session with state := .authenticated, authenticated := true, refreshTokenHash := some refreshTokenHash }

/-- A failed lookup becomes a blank session of the DID. The old id goes before the new one comes. -/
def updateSessionAuthenticated (oldSessionId newSessionId did refreshTokenHash : String) : AuthRoutine Unit := do
  let found ← attempt (.getSession oldSessionId did)
  let session := found.toOption.getD { sessionId := newSessionId, did, didHash := digest did }
  if oldSessionId ≠ newSessionId then perform (.deleteSession oldSessionId)
  perform (.putSession (session.promote digest newSessionId did refreshTokenHash) 86400)
  perform (.statsIncrement "SESSIONS_SUCCESS" 1)

/-- A failed lookup becomes a blank session. -/
def updateRefreshTokenHash (sessionId refreshTokenHash : String) : AuthRoutine Unit := do
  let found ← attempt (.getSession sessionId "")
  let session : Session := found.toOption.getD { sessionId }
  perform (.putSession { session with refreshTokenHash := some refreshTokenHash } 86400)

/-- A failed lookup is no hash. -/
def getRefreshTokenHash (sessionId : String) : AuthRoutine (Option String) := do
  let found ← attempt (.getSession sessionId "")
  return found.toOption.bind Session.refreshTokenHash

end AffinidiTdk.Auth
