/-
Whose sessions they are. Over every run of challenges, responses over DIDComm and TSP, and
refreshes, with accounts blocked and unblocked in between: which event authenticated a session, and
who asked for new tokens.
-/
import AffinidiTdk.Auth.Handlers

namespace AffinidiTdk.Auth

open Fallible List Option Prod SessionTable
open Acl Store Didcomm Program

/-! ## Runs -/

/-- A request, handled alone, a new reading of the two clocks, or a change of the accounts. -/
inductive AuthEvent
  | challenge (sessionId challenge did : String)
  | response (newSessionId body : String)
  | tspResponse (newSessionId : String) (body : TspAuthenticateBody)
  | refresh (body : String)
  | clock (unixSecs elapsed : ℕ)
  | accounts (store : MemoryState)

section

variable {Key : Type} (shared : SharedData Key)

def AuthState.handle (st : AuthState) : AuthEvent → AuthState
  | .challenge sessionId challenge did =>
    (run (memoryStore shared.digest) (authenticationChallenge shared sessionId challenge did) st).2
  | .response newSessionId body =>
      (run (memoryStore shared.digest) (authenticationResponse shared newSessionId body) st).2
  | .tspResponse newSessionId body =>
    (run (memoryStore shared.digest) (tspAuthenticationResponse shared newSessionId body) st).2
  | .refresh body => (run (memoryStore shared.digest) (authenticationRefresh shared body) st).2
  | .clock unixSecs elapsed => { st with unixSecs, instant := st.instant + elapsed }
  | .accounts store => { st with store }

/-- The runs whose events are all `ok`, with every event and the state it came in. -/
inductive AuthRun (ok : AuthState → AuthEvent → Prop) (st₀ : AuthState) : List (AuthState × AuthEvent) →
  AuthState → Prop
  | start : AuthRun ok st₀ [] st₀
  | step {history : List (AuthState × AuthEvent)} {st : AuthState} (e : AuthEvent) :
      AuthRun ok st₀ history st → ok st e → AuthRun ok st₀ ((st, e) :: history) (st.handle shared e)

/-! ## What binds a session to its DID -/

/-- The DID has an account, and it is blocked. -/
def Blocked (st : AuthState) (did : String) : Prop :=
  ∃ account, st.store.accounts (shared.digest did) = some account ∧ grants account.acls .notBlocked = false

/-- The record is the challenge of this session's DID. -/
def Awaits (record : SessionRecord) (session : Session) : Prop :=
  record.session.state = .challengeSent ∧ record.session.did = session.did ∧
    record.session.challenge = session.challenge

variable (Signed : Key → Bytes → Prop)

/-- The event is a response by the session's DID, not blocked, that carries or signs the challenge
stored for it. -/
def Authenticates (before : AuthState) (session : Session) : AuthEvent → Prop
  | .response newSessionId body => newSessionId = session.sessionId ∧ ¬Blocked shared before session.did ∧
      ∃ envelope msg metadata carried record, shared.newEnvelope body = .ok envelope ∧
        envelope.fromDid = some session.did ∧ shared.unpack envelope = .ok (msg, metadata) ∧
        AuthenticationChallenge.ofJson msg.body = .ok carried ∧
        before.sessions.get carried.sessionId = some record ∧ Awaits record session ∧
        carried.challenge = session.challenge
  | .tspResponse newSessionId body => newSessionId = session.sessionId ∧ ¬Blocked shared before session.did ∧
      body.vid = session.did ∧
      ∃ record key, before.sessions.get body.sessionId = some record ∧ Awaits record session ∧
        shared.resolveSigningKey session.did = .ok key ∧ Signed key (utf8 session.challenge)
  | _ => False

/-- A refresh of this session was sent by its DID, which is not blocked. -/
def SentByOwner (before : AuthState) (body sessionId : String) : Prop :=
  ∃ envelope record, shared.newEnvelope body = .ok envelope ∧ before.sessions.get sessionId = some record ∧
    envelope.fromDid = some record.session.did ∧ ¬Blocked shared before record.session.did

/-! ## What the handlers do not compare -/

/-- A response over DIDComm carries the challenge of the session it names, a VID that responds over
TSP is not blocked, and a refresh is sent by the DID of the session its token names. -/
def Comparable (st : AuthState) : AuthEvent → Prop
  | .response _ body => ∀ envelope msg metadata carried record, shared.newEnvelope body = .ok envelope →
      shared.unpack envelope = .ok (msg, metadata) → AuthenticationChallenge.ofJson msg.body = .ok carried →
      st.sessions.get carried.sessionId = some record → carried.challenge = record.session.challenge
  | .tspResponse _ body => ¬Blocked shared st body.vid
  | .refresh body => ∀ envelope msg metadata token claims record, shared.newEnvelope body = .ok envelope →
      shared.unpack envelope = .ok (msg, metadata) → refreshTokenOf msg = .ok token →
      shared.jwtDecode token = .ok claims → st.sessions.get claims.sessionId = some record →
      envelope.fromDid = some record.session.did
  | _ => True

/-! ## Parts of the handlers -/

variable {shared} {Signed} {st st' : AuthState}

/-- What a session is, apart from its tokens. -/
def SameSession (a b : Session) : Prop :=
  a.sessionId = b.sessionId ∧ a.state = b.state ∧ a.did = b.did ∧ a.challenge = b.challenge

theorem SameSession.refl (session : Session) : SameSession session session := ⟨rfl, rfl, rfl, rfl⟩

variable (shared) in
theorem shown_sameSession (st : AuthState) (record : SessionRecord) (did : String) :
    SameSession record.session (st.shown shared.digest record did) := by
  unfold AuthState.shown SameSession
  split
  · exact ⟨rfl, rfl, rfl, rfl⟩
  · simp

theorem run_authenticationCheck (didHash : String) :
    run (memoryStore shared.digest) (authenticationCheck shared didHash) st =
      (.ok ((st.store.accounts didHash).elim (grants shared.security.globalAclDefault .notBlocked, false)
        fun account => (grants account.acls .notBlocked, true)), st) := by
  unfold authenticationCheck
  rw [run_bind, run_perform]
  simp only [memoryStore, AuthState.onStore, getDidAcls]
  cases haccount : st.store.accounts didHash with
  | none | some account => simp [haccount, pure, run]

variable (shared) in
theorem run_allowedSender (envelope : MetaEnvelope) :
    (run (memoryStore shared.digest) (allowedSender shared envelope) st).2 = st ∧
      ∀ fromDid, (run (memoryStore shared.digest) (allowedSender shared envelope) st).1 = .ok fromDid →
        envelope.fromDid = some fromDid ∧ ¬Blocked shared st fromDid := by
  unfold allowedSender
  cases hfrom : envelope.fromDid with
  | none => exact ⟨rfl, by rintro fromDid ⟨⟩⟩
  | some sender =>
    dsimp only
    rw [run_bind, run_mapError, run_authenticationCheck, mapError_ok]
    dsimp only
    split
    · rename_i hallowed
      refine ⟨rfl, fun fromDid hok => ?_⟩
      cases hok
      refine ⟨rfl, ?_⟩
      rintro ⟨account, haccount, hblocked⟩
      rw [haccount] at hallowed
      exact absurd hallowed (by simp [hblocked])
    · refine ⟨rfl, fun fromDid hok => ?_⟩
      cases hok

variable (shared) in
/-- The promotion of a session that is there: its challenge goes, and the only record that comes is
the promoted one. -/
theorem run_updateSessionAuthenticated (newSessionId did hash : String) {oldSessionId : String}
    {record : SessionRecord} (hget : st.sessions.get oldSessionId = some record)
    (hlive : st.instant < record.expiresAt) : ∃ st', run (memoryStore shared.digest)
    (updateSessionAuthenticated shared.digest oldSessionId newSessionId did hash) st = (.ok (), st') ∧ ∀ id r,
    st'.sessions.get id = some r → st.sessions.get id = some r ∨ r.session =
    (st.shown shared.digest record did).promote shared.digest newSessionId did hash := by
  have hfound := getSession_eq_ok shared.digest hget hlive did
  unfold updateSessionAuthenticated
  rw [run_bind, run_attempt]
  simp only [memoryStore, hfound]
  by_cases hsame : oldSessionId = newSessionId
  · refine ⟨_, by simp only [hsame, ne_eq, not_true_eq_false, if_false]; rfl, ?_⟩
    intro id r h
    rcases get_of_insert h with hold | rfl
    · exact .inl hold
    · exact .inr rfl
  · refine ⟨_, by simp only [hsame, ne_eq, not_false_eq_true, if_true]; rfl, ?_⟩
    intro id r h
    rcases get_of_insert h with hold | rfl
    · exact .inl (get_of_remove hold)
    · exact .inr rfl

/-! ## Where a record comes from -/

variable (shared Signed) in
/-- Every record after the event was there before, apart from its tokens, or is a new challenge, or
was authenticated by the event. -/
def Accounted (st : AuthState) (e : AuthEvent) (st' : AuthState) : Prop :=
  ∀ id record, st'.sessions.get id = some record →
    (∃ old, st.sessions.get id = some old ∧ SameSession old.session record.session) ∨
    (record.session.state = .challengeSent ∧ Text.startsWith "did:" record.session.did = true) ∨
    Authenticates shared Signed st record.session e

variable {e : AuthEvent}

theorem Accounted.shrink (h : ∀ id record, st'.sessions.get id = some record → st.sessions.get id = some record) :
    Accounted shared Signed st e st' :=
  fun id record hget => .inl ⟨record, h id record hget, .refl _⟩

theorem Accounted.refl (e : AuthEvent) : Accounted shared Signed st e st := .shrink fun _ _ h => h

variable (shared) in
/-- The promotion of a record, as the session's own record or as the promoted session. -/
theorem promote_sameSession (session : Session) (newSessionId hash : String) :
    SameSession (session.promote shared.digest newSessionId session.did hash)
      { session with sessionId := newSessionId, state := .authenticated } := by
  unfold Session.promote SameSession
  dsimp only
  split
  · exact ⟨rfl, rfl, rfl, rfl⟩
  · exact ⟨rfl, rfl, rfl, rfl⟩

variable (shared Signed) in
theorem Accounted.promote (e : AuthEvent) (newSessionId hash : String) {oldSessionId : String} {session : Session}
    {record : SessionRecord} (hget : st.sessions.get oldSessionId = some record)
    (hlive : st.instant < record.expiresAt) (hsession : SameSession record.session session)
    (hauth : ∀ promoted : Session, promoted.sessionId = newSessionId → promoted.did = record.session.did →
    promoted.challenge = record.session.challenge → Authenticates shared Signed st promoted e) : ∃ st',
    run (memoryStore shared.digest)
    (updateSessionAuthenticated shared.digest oldSessionId newSessionId session.did hash) st = (.ok (), st') ∧
    Accounted shared Signed st e st' := by
  obtain ⟨st', hrun, hrecords⟩ := run_updateSessionAuthenticated shared newSessionId session.did hash hget hlive
  refine ⟨st', hrun, fun id r hr => ?_⟩
  rcases hrecords id r hr with hold | hnew
  · exact .inl ⟨r, hold, .refl _⟩
  · right; right
    obtain ⟨-, -, hdid, hchallenge⟩ := shown_sameSession shared st record session.did
    have hdid' : session.did = (st.shown shared.digest record session.did).did := by rw [← hdid, ← hsession.2.2.1]
    obtain ⟨hid, -, hdid'', hchallenge'⟩ := promote_sameSession shared
      (st.shown shared.digest record session.did) newSessionId hash
    rw [← hdid'] at hid hdid'' hchallenge'
    rw [hnew]
    refine hauth _ hid ?_ ?_
    · rw [hdid'']
      exact hsession.2.2.1.symm
    · rw [hchallenge']
      exact hchallenge.symm

theorem accounted_registerDid {didHash : String} (h : Accounted shared Signed st e st') :
    Accounted shared Signed st e (run (memoryStore shared.digest) (registerDidAndSetup shared didHash) st').2 := by
  have hsessions : (run (memoryStore shared.digest) (registerDidAndSetup shared didHash) st').2.sessions =
      st'.sessions := by
    unfold registerDidAndSetup
    rw [run_bind, run_perform]
    simp only [memoryStore, AuthState.onStore, accountExists]
    split
    · rfl
    · split
      · rfl
      · rfl
  intro id record hget
  rw [hsessions] at hget
  exact h id record hget

variable {sessionId did : String} {session : Session}

theorem of_getSession_eq_ok (h : (st.getSession shared.digest sessionId did).1 = .ok session) :
    ∃ record, st.sessions.get sessionId = some record ∧ st.instant < record.expiresAt ∧ st.shown shared.digest
    record did = session ∧ st.getSession shared.digest sessionId did = (.ok session, st) := by
  rcases getSession_cases shared.digest st sessionId did with ⟨record, hget, hlive, heq⟩ | ⟨e, st₁, heq, -⟩
  · rw [heq] at h
    cases h
    exact ⟨record, hget, hlive, rfl, heq⟩
  · rw [heq] at h
    cases h

theorem of_run_getSession {g : MediatorError → MediatorError}
    (h : run (memoryStore shared.digest) (performOr g (.getSession sessionId did)) st = (.ok session, st')) :
    ∃ record, st.sessions.get sessionId = some record ∧ st.instant < record.expiresAt ∧ st = st' ∧
    st.shown shared.digest record did = session := by
  rw [run_performOr] at h
  obtain ⟨hsession, hstate⟩ := mk.inj h
  rw [mapError_eq_ok_iff] at hsession
  obtain ⟨record, hget, hlive, hshown, heq⟩ := of_getSession_eq_ok hsession
  exact ⟨record, hget, hlive, (congrArg snd heq).symm.trans hstate, hshown⟩

variable {msg : Message} {u : Unit}

theorem checkChallengeSession_eq_ok (h : checkChallengeSession msg session = .ok u) :
    (∀ sender, msg.sender = some sender → sender = session.did) ∧ session.state = .challengeSent := by
  unfold checkChallengeSession at h
  split at h
  · cases h
  · rename_i hdid
    split at h
    · cases h
    · rename_i hstate
      refine ⟨fun sender hsender => ?_, by simpa using hstate⟩
      rw [hsender] at hdid
      simpa using hdid

variable {envelope : MetaEnvelope}

theorem requireSameSender_eq_ok (h : requireSameSender envelope msg = .ok u)
    (hdid : ∀ sender, msg.sender = some sender → sender = did) (hfrom : envelope.fromDid.isSome = true) :
    envelope.fromDid = some did := by
  unfold requireSameSender at h
  split at h
  · rename_i sender hsender
    split at h
    · cases h
    · rename_i hsame
      obtain ⟨fromDid, hfromDid⟩ := isSome_iff_exists.1 hfrom
      rw [← hdid sender hsender]
      simpa [hfromDid, eq_comm] using hsame
  · cases h

theorem unpackAuthMessage_eq_ok (h : unpackAuthMessage shared envelope = .ok msg) : ∃ metadata,
    shared.unpack envelope = .ok (msg, metadata) := by
  unfold unpackAuthMessage at h
  split at h
  · rename_i msg' metadata hunpack
    obtain ⟨_, -, hpure⟩ := bind_eq_ok_iff.1 h
    obtain rfl := pure_eq_ok_iff.1 hpure
    exact ⟨metadata, hunpack⟩
  · cases h

variable {body : TspAuthenticateBody}

theorem checkTspSession_eq_ok (h : checkTspSession body session = .ok u) : session.state = .challengeSent ∧
    session.did = body.vid := by
  unfold checkTspSession at h
  split at h
  · cases h
  · rename_i hstate
    split at h
    · cases h
    · rename_i hdid
      exact ⟨by simpa using hstate, by simpa using hdid⟩

theorem verifyChallenge_eq_ok (h : verifyChallenge shared body session = .ok u) : ∃ key signature,
    shared.resolveSigningKey body.vid = .ok key ∧ shared.verify (utf8 session.challenge) signature key = true := by
  unfold verifyChallenge at h
  obtain ⟨signature, -, h⟩ := bind_eq_ok_iff.1 h
  obtain ⟨key, hkey, h⟩ := bind_eq_ok_iff.1 h
  rw [mapError_eq_ok_iff] at hkey
  split at h
  · rename_i hverify
    exact ⟨key, signature, hkey, hverify⟩
  · cases h

theorem openRefresh_eq_ok {body : String} (h : openRefresh shared body = .ok (envelope, msg)) :
    shared.newEnvelope body = .ok envelope ∧ ∃ metadata, shared.unpack envelope = .ok (msg, metadata) := by
  unfold openRefresh at h
  obtain ⟨envelope', henvelope, h⟩ := bind_eq_ok_iff.1 h
  obtain ⟨msg', hmsg, h⟩ := bind_eq_ok_iff.1 h
  obtain ⟨_, -, h⟩ := bind_eq_ok_iff.1 h
  cases pure_eq_ok_iff.1 h
  rw [mapError_eq_ok_iff] at henvelope
  exact ⟨henvelope, unpackAuthMessage_eq_ok hmsg⟩

theorem presentedToken_eq_ok {now : ℕ} {token fromDid : String} {claims : SessionClaims}
    (h : presentedToken shared envelope msg now = .ok (token, claims, fromDid)) : refreshTokenOf msg = .ok token ∧
    shared.jwtDecode token = .ok claims ∧ envelope.fromDid = some fromDid := by
  unfold presentedToken at h
  obtain ⟨-, -, h⟩ := bind_eq_ok_iff.1 h
  obtain ⟨token', htoken, h⟩ := bind_eq_ok_iff.1 h
  obtain ⟨claims', hclaims, h⟩ := bind_eq_ok_iff.1 h
  rw [mapError_eq_ok_iff] at hclaims
  split at h
  · cases h
  · split at h
    · rename_i sender hsender
      obtain ⟨rfl, rfl, rfl⟩ : token' = token ∧ claims' = claims ∧ sender = fromDid := by
        simpa [pure, Except.pure] using h
      exact ⟨htoken, hclaims, hsender⟩
    · cases h

theorem checkRefreshSession_eq_ok (h : checkRefreshSession session = .ok u) :
    grants session.acls .notBlocked = true := by
  unfold checkRefreshSession at h
  split at h
  · cases h
  · split at h
    · cases h
    · rename_i hblocked
      simpa using hblocked

/-! ## The events -/

theorem accounted_challenge (sessionId challenge did : String) :
    Accounted shared Signed st (.challenge sessionId challenge did)
      (st.handle shared (.challenge sessionId challenge did)) := by
  show Ends (memoryStore shared.digest) (authenticationChallenge shared sessionId challenge did) st
    fun _ st' => Accounted shared Signed st (.challenge sessionId challenge did) st'
  unfold authenticationChallenge
  split
  · exact .refl _
  · rename_i hshape
    refine .bind (fun checked st₁ hcheck => ?_) fun e st₁ hcheck => ?_
    · rw [run_authenticationCheck] at hcheck
      obtain rfl := (mk.inj hcheck).2
      -- whatever account is added, the one new record is the challenge
      have hnew : ∀ st₁ : AuthState, st₁.sessions = st.sessions → Accounted shared Signed st
          (.challenge sessionId challenge did) (run (memoryStore shared.digest) (do
            createSession { sessionId, challenge, state := .challengeSent, did, didHash := shared.digest did }
            return (⟨sessionId, ⟨challenge, sessionId⟩⟩ : SuccessResponse AuthenticationChallenge)) st₁).2 := by
        intro st₁ hsame id record hget
        rcases get_of_insert hget with hold | rfl
        · rw [hsame] at hold
          exact .inl ⟨record, hold, .refl _⟩
        · exact .inr (.inl ⟨rfl, by simpa using hshape⟩)
      obtain ⟨allowed, known⟩ := checked
      cases allowed with
      | false => exact .refl _
      | true =>
        cases known with
        | false => exact hnew _ rfl
        | true => exact hnew st rfl
    · rw [run_authenticationCheck] at hcheck
      cases (mk.inj hcheck).1

variable {newSessionId : String}

theorem accounted_response {body : String} (hcomparable : Comparable shared st (.response newSessionId body)) :
    Accounted shared Signed st (.response newSessionId body) (st.handle shared (.response newSessionId body)) := by
  show Ends (memoryStore shared.digest) (authenticationResponse shared newSessionId body) st
    fun _ st' => Accounted shared Signed st (.response newSessionId body) st'
  unfold authenticationResponse
  -- a check that fails ends the request with the state as it was
  refine .lift (fun envelope henvelope => ?_) fun _ => .refl _
  rw [mapError_eq_ok_iff] at henvelope
  refine .lift (fun _ _ => ?_) fun _ => .refl _
  refine .bind ?_ ?_
  swap
  · intro e st₁ hsender
    obtain rfl := (run_allowedSender shared envelope).1.symm.trans (congrArg snd hsender)
    exact .refl _
  intro fromDid st₁ hsender
  obtain rfl := (run_allowedSender shared envelope).1.symm.trans (congrArg snd hsender)
  obtain ⟨hfrom, hblocked⟩ := (run_allowedSender shared envelope).2 fromDid (congrArg fst hsender)
  refine .lift (fun msg hmsg => ?_) fun _ => .refl _
  refine .lift (fun _ hsame => ?_) fun _ => .refl _
  refine .lift (fun _ _ => ?_) fun _ => .refl _
  refine .answer rfl ?_
  refine .lift (fun _ _ => ?_) fun _ => .refl _
  refine .lift (fun carried hcarried => ?_) fun _ => .refl _
  unfold parseChallenge at hcarried
  rw [mapError_eq_ok_iff] at hcarried
  refine .bind ?_ ?_
  swap
  · intro e st₁ hsession
    obtain rfl := congrArg snd hsession
    exact .shrink fun _ _ => get_of_getSession shared.digest
  intro session st₁ hsession
  obtain ⟨record, hget, hlive, rfl, rfl⟩ := of_run_getSession hsession
  refine .lift (fun _ hchallenge => ?_) fun _ => .refl _
  obtain ⟨hdid, hstate⟩ := checkChallengeSession_eq_ok hchallenge
  refine .lift (fun minted _ => ?_) fun _ => .refl _
  have hkey := shown_sessionId shared.digest hget fromDid
  -- past the checks, the session is promoted
  obtain ⟨st₂, hrun, haccounted⟩ :=
    Accounted.promote shared Signed (.response newSessionId body) newSessionId minted.2 hget hlive
    (shown_sameSession shared st record fromDid) (by
      intro promoted hid hdid' hchallenge'
      have hsender' := requireSameSender_eq_ok hsame hdid (by rw [hfrom]; rfl)
      obtain ⟨metadata, hunpack⟩ := unpackAuthMessage_eq_ok hmsg
      obtain ⟨-, -, hshownDid, -⟩ := shown_sameSession shared st record fromDid
      have hown : fromDid = promoted.did := by
        rw [hdid', hshownDid]
        exact some.inj (hfrom.symm.trans hsender')
      refine ⟨hid.symm, hown ▸ hblocked, envelope, msg, metadata, carried, record, henvelope, hown ▸ hfrom, hunpack,
        hcarried, hget, ⟨?_, hdid'.symm, hchallenge'.symm⟩, ?_⟩
      · rw [(shown_sameSession shared st record fromDid).2.1]
        exact hstate
      · rw [hchallenge']
        exact hcomparable envelope msg metadata carried record henvelope hunpack hcarried hget)
  rw [hkey]
  refine .bind ?_ ?_
  · intro _ st₃ hupdate
    rw [run_mapError, hrun] at hupdate
    obtain rfl := congrArg snd hupdate
    refine .bind ?_ ?_
    · intro _ st₄ hregister
      obtain rfl := congrArg snd hregister
      exact accounted_registerDid haccounted
    · intro e st₄ hregister
      obtain rfl := congrArg snd hregister
      exact accounted_registerDid haccounted
  · intro e st₃ hupdate
    rw [run_mapError, hrun] at hupdate
    obtain rfl := congrArg snd hupdate
    exact haccounted

theorem accounted_tspResponse (hverify : ∀ message signature key, shared.verify message signature key = true →
    Signed key message) (hcomparable : Comparable shared st (.tspResponse newSessionId body)) : Accounted shared
    Signed st (.tspResponse newSessionId body) (st.handle shared (.tspResponse newSessionId body)) := by
  show Ends (memoryStore shared.digest) (tspAuthenticationResponse shared newSessionId body) st
    fun _ st' => Accounted shared Signed st (.tspResponse newSessionId body) st'
  unfold tspAuthenticationResponse
  split
  · exact .refl _
  refine .bind ?_ ?_
  swap
  · intro e st₁ hsession
    obtain rfl := congrArg snd hsession
    exact .shrink fun _ _ => get_of_getSession shared.digest
  intro session st₁ hsession
  obtain ⟨record, hget, hlive, rfl, heq⟩ := of_getSession_eq_ok (congrArg fst hsession)
  obtain rfl : st = st₁ := (congrArg snd heq).symm.trans (congrArg snd hsession)
  refine .lift (fun _ hchecked => ?_) fun _ => .refl _
  obtain ⟨hstate, hdid⟩ := checkTspSession_eq_ok hchecked
  refine .lift (fun _ hverified => ?_) fun _ => .refl _
  obtain ⟨key, signature, hkey, hsigned⟩ := verifyChallenge_eq_ok hverified
  refine .answer rfl ?_
  refine .lift (fun minted _ => ?_) fun _ => .refl _
  obtain ⟨-, hstate', hdid', hchallenge'⟩ := shown_sameSession shared st record body.vid
  obtain ⟨st₂, hrun, haccounted⟩ :=
    Accounted.promote shared Signed (.tspResponse newSessionId body) newSessionId minted.2 hget hlive
    (shown_sameSession shared st record body.vid) (by
      intro promoted hid hpromoted hchallenge
      have hown : body.vid = promoted.did := by rw [hpromoted, hdid', hdid]
      refine ⟨hid.symm, hown ▸ hcomparable, hown, record, key, hget, ⟨?_, hpromoted.symm, hchallenge.symm⟩,
        hown ▸ hkey, ?_⟩
      · rw [hstate', hstate]
      · rw [hchallenge, hchallenge']
        exact hverify _ _ _ hsigned)
  rw [shown_sessionId shared.digest hget body.vid]
  refine .bind ?_ ?_
  · intro _ st₃ hupdate
    rw [hrun] at hupdate
    obtain rfl := congrArg snd hupdate
    exact haccounted
  · intro e st₃ hupdate
    rw [hrun] at hupdate
    cases (mk.inj hupdate).1

variable (Signed) in
theorem refresh_ends {body : String} (hdids : ∀ id record, st.sessions.get id = some record →
      Text.startsWith "did:" record.session.did = true) (hcomparable : Comparable shared st (.refresh body)) :
    Ends (memoryStore shared.digest) (authenticationRefresh shared body) st fun r st' =>
      Accounted shared Signed st (.refresh body) st' ∧
        ∀ response, r = .ok response → SentByOwner shared st body response.sessionId := by
  unfold authenticationRefresh
  refine .lift (fun opened hopen => ?_) fun _ => ⟨.refl _, by rintro _ ⟨⟩⟩
  obtain ⟨envelope, msg⟩ := opened
  obtain ⟨henvelope, metadata, hunpack⟩ := openRefresh_eq_ok hopen
  refine .answer rfl ?_
  refine .lift (fun presented hpresented => ?_) fun _ => ⟨.refl _, by rintro _ ⟨⟩⟩
  obtain ⟨token, claims, fromDid⟩ := presented
  obtain ⟨htoken, hclaims, hfrom⟩ := presentedToken_eq_ok hpresented
  unfold refreshSession
  refine .bind ?_ ?_
  swap
  · intro e st₁ hsession
    obtain rfl := congrArg snd hsession
    exact ⟨.shrink fun _ _ => get_of_getSession shared.digest, by rintro _ ⟨⟩⟩
  intro session st₁ hsession
  obtain ⟨record, hget, hlive, rfl, rfl⟩ := of_run_getSession hsession
  refine .lift (fun _ hchecked => ?_) fun _ => ⟨.refl _, by rintro _ ⟨⟩⟩
  have hgrants := checkRefreshSession_eq_ok hchecked
  have howner : envelope.fromDid = some record.session.did :=
    hcomparable envelope msg metadata token claims record henvelope hunpack htoken hclaims hget
  obtain rfl : record.session.did = fromDid := some.inj (howner.symm.trans hfrom)
  have hid := shown_sessionId shared.digest hget record.session.did
  -- the account that was joined is the session's own
  have hblocked : ¬Blocked shared st record.session.did := by
    rintro ⟨account, haccount, hblocked⟩
    have hshown : st.shown shared.digest record record.session.did = record.session.join (some account) := by
      unfold AuthState.shown
      rw [haccount, if_neg]
      intro hempty
      have hshape := hdids _ _ hget
      rw [String.isEmpty_iff.1 hempty] at hshape
      cases hshape
    rw [hshown] at hgrants
    exact absurd (hgrants.symm.trans hblocked) (by decide)
  have hfound : st.getSession shared.digest claims.sessionId "" = (.ok record.session, st) :=
    getSession_eq_ok shared.digest hget hlive ""
  unfold compareRefreshToken
  rw [hid]
  refine .bind ?_ ?_
  swap
  · intro e st₁ hhash
    rw [run_mapError] at hhash
    unfold getRefreshTokenHash at hhash
    rw [run_bind, run_attempt] at hhash
    cases (mk.inj hhash).1
  intro storedHash st₁ hhash
  obtain rfl : st = st₁ := by
    rw [run_mapError] at hhash
    unfold getRefreshTokenHash at hhash
    rw [run_bind, run_attempt] at hhash
    simp only [memoryStore, hfound] at hhash
    exact (mk.inj hhash).2
  refine .lift (fun _ _ => ?_) fun _ => ⟨.refl _, by rintro _ ⟨⟩⟩
  refine .lift (fun minted _ => ?_) fun _ => ⟨.refl _, by rintro _ ⟨⟩⟩
  unfold rotateRefreshToken Ends
  rw [hid, run_bind, run_mapError]
  unfold updateRefreshTokenHash
  rw [run_bind, run_attempt]
  simp only [memoryStore, hfound]
  refine ⟨fun id r hr => ?_, ?_⟩
  · rcases get_of_insert hr with hold | rfl
    · exact .inl ⟨r, hold, .refl _⟩
    · have hkey : id = claims.sessionId := by
        have := (insert st.sessions _).keyed id _ hr
        rw [← this]
        exact st.sessions.keyed _ record hget
      rw [hkey]
      exact .inl ⟨record, hget, ⟨rfl, rfl, rfl, rfl⟩⟩
  · intro response hresponse
    cases hresponse
    exact ⟨envelope, record, henvelope, hget, howner, hblocked⟩

/-! ## Every run -/

theorem Authenticates.congr {a b : Session} (h : SameSession a b) (ha : Authenticates shared Signed st a e) :
    Authenticates shared Signed st b e := by
  obtain ⟨hid, -, hdid, hchallenge⟩ := h
  cases e with
  | response newSessionId body | tspResponse newSessionId body =>
    unfold Authenticates Awaits at ha ⊢
    rw [← hid, ← hdid, ← hchallenge]
    exact ha
  | _ => exact ha

theorem Authenticates.awaited (h : Authenticates shared Signed st session e) : ∃ id record, st.sessions.get id =
    some record ∧ record.session.did = session.did := by
  cases e with
  | response newSessionId body =>
    obtain ⟨-, -, _, _, _, carried, record, -, -, -, -, hget, hawaits, -⟩ := h
    exact ⟨carried.sessionId, record, hget, hawaits.2.1⟩
  | tspResponse newSessionId body =>
    obtain ⟨-, -, -, record, _, hget, hawaits, -⟩ := h
    exact ⟨body.sessionId, record, hget, hawaits.2.1⟩
  | _ => exact h.elim

theorem accounted (hverify : ∀ message signature key, shared.verify message signature key = true →
    Signed key message) (hdids : ∀ id record, st.sessions.get id = some record → Text.startsWith "did:"
    record.session.did = true) (hcomparable : Comparable shared st e) : Accounted shared Signed st e
    (st.handle shared e) := by
  cases e with
  | challenge sessionId challenge did => exact accounted_challenge sessionId challenge did
  | response newSessionId body => exact accounted_response hcomparable
  | tspResponse newSessionId body => exact accounted_tspResponse hverify hcomparable
  | refresh body => exact (refresh_ends Signed hdids hcomparable).1
  | clock unixSecs elapsed | accounts store => exact .shrink fun _ _ h => h

theorem Accounted.dids (h : Accounted shared Signed st e st')
    (hdids : ∀ id record, st.sessions.get id = some record → Text.startsWith "did:" record.session.did = true) :
    ∀ id record, st'.sessions.get id = some record → Text.startsWith "did:" record.session.did = true := by
  intro id record hget
  rcases h id record hget with ⟨old, hold, hsame⟩ | ⟨-, hshape⟩ | hauth
  · rw [← hsame.2.2.1]
    exact hdids id old hold
  · exact hshape
  · obtain ⟨id', old, hold, hdid⟩ := hauth.awaited
    rw [← hdid]
    exact hdids id' old hold

/-- In every run the DID of a session begins with `did:`. -/
theorem dids_of_run (hverify : ∀ message signature key, shared.verify message signature key = true →
    Signed key message)
    {st₀ : AuthState} (hnone : ∀ id, st₀.sessions.get id = none) {history : List (AuthState × AuthEvent)}
    (hrun : AuthRun shared (Comparable shared) st₀ history st) :
    ∀ id record, st.sessions.get id = some record → Text.startsWith "did:" record.session.did = true := by
  induction hrun with
  | start =>
    intro id record hget
    rw [hnone] at hget
    cases hget
  | step e _ hcomparable ih => exact (accounted hverify ih hcomparable).dids ih

/-- In every run from a store without sessions in which the requests compare as they should: an
authenticated session was authenticated by a response of its own DID, not blocked at that moment,
that carried or signed the challenge stored for it; and a refresh that was answered with tokens for
a session was sent by that session's DID, not blocked at that moment. -/
theorem sessions_bound (hverify : ∀ message signature key, shared.verify message signature key = true →
      Signed key message) {st₀ : AuthState} (hnone : ∀ id, st₀.sessions.get id = none)
    {history : List (AuthState × AuthEvent)} (hrun : AuthRun shared (Comparable shared) st₀ history st) :
    (∀ id record, st.sessions.get id = some record → record.session.state = .authenticated →
      ∃ x ∈ history, Authenticates shared Signed x.1 record.session x.2) ∧
    ∀ before body response, (before, AuthEvent.refresh body) ∈ history →
      (run (memoryStore shared.digest) (authenticationRefresh shared body) before).1 = .ok response →
      SentByOwner shared before body response.sessionId := by
  induction hrun with
  | start =>
    refine ⟨fun id record hget => ?_, by rintro _ _ _ ⟨⟩⟩
    rw [hnone] at hget
    cases hget
  | @step history st e hrun hcomparable ih =>
    have hdids := dids_of_run hverify hnone hrun
    refine ⟨fun id record hget hstate => ?_, fun before body response hmem hok => ?_⟩
    · rcases accounted hverify hdids hcomparable id record hget with ⟨old, hold, hsame⟩ | ⟨hsent, -⟩ | hauth
      · obtain ⟨x, hx, hauth⟩ := ih.1 id old hold (hsame.2.1.trans hstate)
        exact ⟨x, mem_cons_of_mem _ hx, hauth.congr hsame⟩
      · rw [hsent] at hstate
        cases hstate
      · exact ⟨(st, e), mem_cons_self, hauth⟩
    · rcases mem_cons.1 hmem with heq | hmem
      · cases heq
        exact (refresh_ends Signed hdids hcomparable).2 response hok
      · exact ih.2 before body response hmem hok

end

/-! ## Bob and Eve -/

/-- A mediator that Bob writes to; `stolen` is what Eve sends with a token of Bob's session. -/
def loginShared : SharedData Unit where
  security := ⟨default, .explicitDeny, 1, 3⟩
  digest := id
  newEnvelope := fun s =>
    let sender := some (if s = "stolen" then "did:ex:eve" else "did:ex:bob")
    .ok ⟨s, s, none, sender, true, true, .null, sender⟩
  unpack := fun envelope => .ok ((if envelope.raw = "refresh" ∨ envelope.raw = "stolen" then
      { id := "1", typ := "https://affinidi.com/atm/1.0/authenticate/refresh", sender := envelope.fromDid,
        body := .obj [("refresh_token", .str "xxxxxxx")], expiresTime := some 1000 }
    else
      { id := "1", typ := "https://affinidi.com/atm/1.0/authenticate", sender := envelope.fromDid,
        body := .obj [("challenge", .str envelope.raw), ("session_id", .str "s")], expiresTime := some 1000 }),
    { encrypted := true, authenticated := true })
  jwtEncode := fun claims => .ok (String.ofList (List.replicate claims.exp 'x'))
  jwtDecode := fun token => .ok ⟨"ATM", "did:ex:bob", "n", token.length⟩
  base64 := fun _ => .ok (List.replicate 64 0)
  resolveSigningKey := fun _ => .ok ()
  verify := fun message _ _ => message = utf8 "c"

def loginState : AuthState := ⟨default, .empty, 0, 5⟩

/-- After these events, one after the other. -/
def AuthState.after (st : AuthState) (events : List AuthEvent) : AuthState := events.foldl (·.handle loginShared) st

def challenged : AuthState := loginState.after [.challenge "s" "c" "did:ex:bob"]

def loggedIn : AuthState := challenged.after [.response "n" "c"]

def bobBlocked : MemoryState :=
  { (default : MemoryState) with
    accounts := fun didHash =>
      if didHash = "did:ex:bob" then some { (default : AccountRecord) with acls := .fromU64 4 } else none }

/-- A challenge, the response that carries it, and a refresh by Bob. -/
theorem sessions_bound_login :
    (∃ record, loggedIn.sessions.get "n" = some record ∧
      Authenticates loginShared (fun _ message => message = utf8 "c") challenged record.session
        (.response "n" "c")) ∧
    SentByOwner loginShared loggedIn "refresh" "n" := by
  have hstate : ((challenged.sessions.get "s").map fun r => r.session.challenge) = some "c" ∧
      ((loggedIn.sessions.get "n").map fun r => (r.session.did, r.session.state)) =
        some ("did:ex:bob", .authenticated) ∧
      ((run (memoryStore id) (authenticationRefresh loginShared "refresh") loggedIn).1.toOption.map
        SuccessResponse.sessionId) = some "n" := by
    decide +kernel
  obtain ⟨hchallenge, hlogin, hrefreshed⟩ := hstate
  have hfirst : AuthRun loginShared (Comparable loginShared) loginState
      [(challenged, .response "n" "c"), (loginState, .challenge "s" "c" "did:ex:bob")] loggedIn := by
    refine .step _ (.step _ .start trivial) ?_
    intro envelope msg metadata carried record henvelope hunpack hcarried hget
    cases henvelope
    cases hunpack
    obtain rfl : (⟨"c", "s"⟩ : AuthenticationChallenge) = carried := Except.ok.inj hcarried
    change challenged.sessions.get "s" = some record at hget
    rw [hget] at hchallenge
    exact (some.inj hchallenge).symm
  have hcomparable : Comparable loginShared loggedIn (.refresh "refresh") := by
    intro envelope msg metadata token claims record henvelope hunpack htoken hclaims hget
    cases henvelope
    cases hclaims
    change loggedIn.sessions.get "n" = some record at hget
    rw [hget] at hlogin
    rw [(mk.inj (some.inj hlogin)).1]
    rfl
  have hverify : ∀ message signature key, loginShared.verify message signature key = true → message = utf8 "c" :=
    fun message signature key h => by simpa [loginShared] using h
  obtain ⟨record, hrecord, hsession⟩ := map_eq_some_iff.1 hlogin
  obtain ⟨response, hresponse, hid⟩ := map_eq_some_iff.1 hrefreshed
  rw [toOption_eq_some_iff] at hresponse
  refine ⟨⟨record, hrecord, ?_⟩, ?_⟩
  · obtain ⟨x, hx, hauth⟩ := (sessions_bound hverify (fun _ => rfl) hfirst).1 "n" record hrecord
      (mk.inj hsession).2
    rcases mem_cons.1 hx with rfl | hx
    · exact hauth
    · obtain rfl := mem_singleton.1 hx
      exact hauth.elim
  · rw [← hid]
    exact (sessions_bound hverify (fun _ => rfl) (.step _ hfirst hcomparable)).2 loggedIn "refresh" response
      mem_cons_self hresponse

/-- Bob is logged in by a response with a challenge that was not his; he is logged in over TSP while
he is blocked; and Eve gets new tokens for his session. -/
theorem sessions_taken :
    (∃ record, (challenged.after [.response "n" "guess"]).sessions.get "n" = some record ∧
      record.session.state = .authenticated ∧ record.session.challenge = "c" ∧
      ∀ Signed, ¬Authenticates loginShared Signed challenged record.session (.response "n" "guess")) ∧
    (let blocked := challenged.after [.accounts bobBlocked]
      ∃ record, (blocked.after [.tspResponse "n" ⟨"did:ex:bob", "s", "signature"⟩]).sessions.get "n" = some record ∧
        record.session.state = .authenticated ∧ ∀ Signed, ¬Authenticates loginShared Signed blocked record.session
          (.tspResponse "n" ⟨"did:ex:bob", "s", "signature"⟩)) ∧
    (∃ response, (run (memoryStore id) (authenticationRefresh loginShared "stolen") loggedIn).1 = .ok response ∧
      response.sessionId = "n" ∧ ¬SentByOwner loginShared loggedIn "stolen" "n") := by
  have hstate : (((challenged.after [.response "n" "guess"]).sessions.get "n").map fun r =>
        (r.session.state, r.session.challenge)) = some (.authenticated, "c") ∧
      (((challenged.after [.accounts bobBlocked, .tspResponse "n" ⟨"did:ex:bob", "s", "signature"⟩]).sessions.get
        "n").map fun r => (r.session.state, r.session.did)) = some (.authenticated, "did:ex:bob") ∧
      ((loggedIn.sessions.get "n").map fun r => r.session.did) = some "did:ex:bob" ∧
      ((run (memoryStore id) (authenticationRefresh loginShared "stolen") loggedIn).1.toOption.map
        SuccessResponse.sessionId) = some "n" := by
    decide +kernel
  obtain ⟨hguessed, htsp, hlogin, hrefreshed⟩ := hstate
  refine ⟨?_, ?_, ?_⟩
  · obtain ⟨record, hrecord, hsession⟩ := map_eq_some_iff.1 hguessed
    obtain ⟨hauthenticated, hchallenge⟩ := mk.inj hsession
    refine ⟨record, hrecord, hauthenticated, hchallenge, ?_⟩
    rintro Signed ⟨-, -, envelope, msg, metadata, carried, old, henvelope, -, hunpack, hcarried, -, -, hsame⟩
    cases henvelope
    cases hunpack
    obtain rfl : (⟨"guess", "s"⟩ : AuthenticationChallenge) = carried := Except.ok.inj hcarried
    rw [hchallenge] at hsame
    exact absurd hsame (by decide)
  · obtain ⟨record, hrecord, hsession⟩ := map_eq_some_iff.1 htsp
    obtain ⟨hauthenticated, hdid⟩ := mk.inj hsession
    refine ⟨record, hrecord, hauthenticated, ?_⟩
    rintro Signed ⟨-, hblocked, -⟩
    rw [hdid] at hblocked
    exact hblocked ⟨_, rfl, by decide +kernel⟩
  · obtain ⟨response, hresponse, hid⟩ := map_eq_some_iff.1 hrefreshed
    rw [toOption_eq_some_iff] at hresponse
    refine ⟨response, hresponse, hid, ?_⟩
    rintro ⟨envelope, record, henvelope, hget, hfrom, -⟩
    cases henvelope
    rw [hget] at hlogin
    have hdid : record.session.did = "did:ex:bob" := some.inj hlogin
    rw [hdid] at hfrom
    exact absurd hfrom (by decide)

end AffinidiTdk.Auth
