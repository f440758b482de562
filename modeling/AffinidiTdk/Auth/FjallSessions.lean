/-
Sessions in the embedded store (`store/fjall_store.rs`), beside those of the in-memory store: it keeps the
expiry in unix seconds, and overrides two of the methods that the store trait derives. The JSON coding of the
records is left out, and so are failing reads and commits.
-/
import AffinidiTdk.Auth.Sessions
import AffinidiTdk.Store.Fjall

namespace AffinidiTdk.Auth

open Acl Store Program
open Bytes (ofString)

/-! ## State -/

/-- A session as it is written: without its id, which is its key. -/
structure StoredSession where
  session : Session
  expiresAtUnix : ℕ

/-- The store with its sessions, and the wall clock in nanoseconds. -/
structure FjallSessions where
  store : Fjall.FjallState
  sessions : String → Option StoredSession
  unixNanos : ℕ

namespace FjallSessions

def unixSecs (st : FjallSessions) : ℕ := st.unixNanos / 10 ^ 9

def insert (st : FjallSessions) (sessionId : String) (stored : StoredSession) : FjallSessions :=
  { st with sessions := Function.update st.sessions sessionId (some stored) }

def remove (st : FjallSessions) (sessionId : String) : FjallSessions :=
  { st with sessions := Function.update st.sessions sessionId none }

/-! ## Methods -/

/-- Write a session; the time to live, in nanoseconds, counts by its whole seconds, up to the largest of them. -/
def putSession (st : FjallSessions) (session : Session) (ttl : ℕ) : FjallSessions :=
  st.insert session.sessionId ⟨{ session with sessionId := "" }, saturatingAddU64 st.unixSecs (ttl / 10 ^ 9)⟩

/-- A session with the ACL and the role of a stored account. -/
def joinStored (session : Session) (account : Option Fjall.StoredAccount) : Session :=
  match account with
  | some account => { session with acls := .fromU64 account.acls, accountType := account.role }
  | none => session

variable (digest : String → String)

/-- The session with its id, joined with the account of `did`. One that has lapsed is dropped. -/
def getSession (st : FjallSessions) (sessionId did : String) : Except MediatorError Session × FjallSessions :=
  match st.sessions sessionId with
  | none => (.error (.sessionError 14 sessionId s!"Session not found: {sessionId}"), st)
  | some stored =>
    if 0 < stored.expiresAtUnix ∧ stored.expiresAtUnix ≤ st.unixSecs then
      (.error (.sessionError 14 sessionId s!"Session expired: {sessionId}"), st.remove sessionId)
    else
      let session := { stored.session with sessionId }
      (.ok (if did.isEmpty then session else joinStored session
        (st.store.accounts.get? (ofString (digest did)))), st)

def deleteSession (st : FjallSessions) (sessionId : String) : FjallSessions := st.remove sessionId

/-- One batch: the old record, whether it has lapsed or not, becomes the new one. -/
def updateSessionAuthenticated (st : FjallSessions) (oldSessionId newSessionId did refreshTokenHash : String) :
    FjallSessions :=
  let stored := (st.sessions oldSessionId).getD ⟨{ did, didHash := digest did }, 0⟩
  let session := stored.session.promote digest "" did refreshTokenHash
  let written := st.insert newSessionId ⟨session, saturatingAddU64 st.unixSecs 86400⟩
  let renamed := if oldSessionId ≠ newSessionId then written.remove oldSessionId else written
  { renamed with store := renamed.store.bumpGlobal "SESSIONS_SUCCESS" 1 }

/-- The record with another hash and the same expiry; none is made where there is none. -/
def updateRefreshTokenHash (st : FjallSessions) (sessionId refreshTokenHash : String) :
    Except MediatorError Unit × FjallSessions :=
  match st.sessions sessionId with
  | none => (.error (.sessionError 14 sessionId s!"Session not found: {sessionId}"), st)
  | some stored =>
    (.ok (), st.insert sessionId
      { stored with session := { stored.session with refreshTokenHash := some refreshTokenHash } })

/-- The trait's own method: a failed lookup is no hash. -/
def getRefreshTokenHash (st : FjallSessions) (sessionId : String) : Option String × FjallSessions :=
  let (found, st) := st.getSession digest sessionId ""
  (found.toOption.bind Session.refreshTokenHash, st)

end FjallSessions

/-- The nanoseconds that an instant can stand for: its seconds are signed 64 bit numbers. -/
def instantRange : ℕ := 2 ^ 63 * 10 ^ 9

/-- The in-memory store's own `put_session`, for any time to live in nanoseconds. The sum of an instant and a time
to live panics where it is out of range, and nothing is stored. -/
def AuthState.putSessionFor (st : AuthState) (session : Session) (ttl : ℕ) : AuthState :=
  if st.instant + ttl < instantRange then
    { st with sessions := st.sessions.insert ⟨session, st.instant + ttl⟩ }
  else st

/-! ## Both at once -/

/-- A call on the sessions, or time passing. -/
inductive SessionOp
  | put (session : Session) (ttl : ℕ)
  | get (sessionId did : String)
  | delete (sessionId : String)
  | authenticate (oldSessionId newSessionId did refreshTokenHash : String)
  | rotate (sessionId refreshTokenHash : String)
  | refreshHash (sessionId : String)
  | advance (nanos : ℕ)

variable (digest : String → String)

/-- The state of the in-memory store after a call, with the methods that the store trait derives. -/
def AuthState.afterOp (st : AuthState) : SessionOp → AuthState
  | .put session ttl => st.putSessionFor session ttl
  | .get sessionId did => (st.getSession digest sessionId did).2
  | .delete sessionId => { st with sessions := st.sessions.remove sessionId }
  | .authenticate oldSessionId newSessionId did refreshTokenHash =>
    (run (memoryStore digest)
      (updateSessionAuthenticated digest oldSessionId newSessionId did refreshTokenHash) st).2
  | .rotate sessionId refreshTokenHash =>
      (run (memoryStore digest) (updateRefreshTokenHash sessionId refreshTokenHash) st).2
  | .refreshHash sessionId => (run (memoryStore digest) (getRefreshTokenHash sessionId) st).2
  | .advance nanos => { st with instant := st.instant + nanos }

/-- The state of the embedded store after a call. -/
def FjallSessions.after (st : FjallSessions) : SessionOp → FjallSessions
  | .put session ttl => st.putSession session ttl
  | .get sessionId did => (st.getSession digest sessionId did).2
  | .delete sessionId => st.deleteSession sessionId
  | .authenticate oldSessionId newSessionId did refreshTokenHash =>
    st.updateSessionAuthenticated digest oldSessionId newSessionId did refreshTokenHash
  | .rotate sessionId refreshTokenHash => (st.updateRefreshTokenHash sessionId refreshTokenHash).2
  | .refreshHash sessionId => (st.getRefreshTokenHash digest sessionId).2
  | .advance nanos => { st with unixNanos := st.unixNanos + nanos }

/-- The two stores, on one clock. -/
structure Backends where
  memory : AuthState
  fjall : FjallSessions

def Backends.after (b : Backends) (op : SessionOp) : Backends :=
    ⟨b.memory.afterOp digest op, b.fjall.after digest op⟩

end AffinidiTdk.Auth
