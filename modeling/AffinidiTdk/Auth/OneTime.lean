/-
Refresh tokens among requests that overlap. A request on its way is a stage: what it has read so
far and which store call comes next. The check against reuse and the rotation are separate calls,
so whether a token is accepted once depends on who comes in between, on the second in which the new
token is made, and on the record still being there.
-/
import AffinidiTdk.Auth.Handlers
import AffinidiTdk.Lib.Rotation

namespace AffinidiTdk.Auth

open Fallible List
open Acl Store Didcomm Program Rotation

/-! ## A refresh in steps -/

/-- How far a refresh is. From `reading` on its token has passed the check against reuse. -/
inductive Stage
  | opening (body : String)
  | looking (token : String) (claims : SessionClaims) (fromDid : String) (now : ℕ)
  | comparing (token : String) (session : Session) (now : ℕ)
  | reading (token : String) (session : Session) (response : AuthorizationResponse) (newHash : String)
  | writing (token : String) (session : Session) (response : AuthorizationResponse) (newHash : String)
      (found : Session)
  | accepted (token : String) (response : SuccessResponse AuthorizationResponse)
  | refused (e : MediatorError)
  deriving DecidableEq

section

variable {Key : Type} (shared : SharedData Key)

def Stage.program : Stage → AuthRoutine (SuccessResponse AuthorizationResponse)
  | .opening body => authenticationRefresh shared body
  | .looking token claims fromDid now => refreshSession shared token claims fromDid now
  | .comparing token session now => compareRefreshToken shared token session now
  | .reading _ session response newHash => rotateRefreshToken session response newHash
  | .writing _ session response newHash found => do
    (perform (.putSession { found with refreshTokenHash := some newHash } 86400)).mapError authStorageError
    return ⟨session.sessionId, response⟩
  | .accepted _ response => .ret (.ok response)
  | .refused e => .ret (.error e)

/-- A stage, or the error that ends the request. -/
def Stage.ofExcept : Except MediatorError Stage → Stage
  | .ok stage => stage
  | .error e => .refused e

/-- The token, its claims and the sender, as the handler takes them from a body. -/
def openToken (body : String) (now : ℕ) : Except MediatorError (String × SessionClaims × String) := do
  let (envelope, msg) ← openRefresh shared body
  presentedToken shared envelope msg now

/-- What follows from the session that is found. -/
def looked (token : String) (now : ℕ) (answer : Except MediatorError Session) : Except MediatorError Stage := do
  let session ← answer.mapError authStorageError
  checkRefreshSession session
  return .comparing token session now

/-- What follows from the hash that is stored. -/
def compared (token : String) (session : Session) (now : ℕ) (storedHash : Option String) :
    Except MediatorError Stage := do
  checkReuse shared token storedHash
  let (response, newHash) ← createTokens shared session.did session.sessionId now
  return .reading token session response newHash

/-- The answer of `get_refresh_token_hash`. -/
def AuthState.storedHash (st : AuthState) (sessionId : String) : Option String :=
  (st.getSession shared.digest sessionId "").1.toOption.bind Session.refreshTokenHash

def Stage.step (stage : Stage) (st : AuthState) : Stage × AuthState :=
  match stage with
  | .opening body =>
    (.ofExcept ((openToken shared body st.unixSecs).map fun (token, claims, fromDid) =>
      .looking token claims fromDid st.unixSecs), st)
  | .looking token claims fromDid now =>
    let (answer, st) := st.getSession shared.digest claims.sessionId fromDid
    (.ofExcept (looked token now answer), st)
  | .comparing token session now =>
    (.ofExcept (compared shared token session now (st.storedHash shared session.sessionId)),
      (st.getSession shared.digest session.sessionId "").2)
  | .reading token session response newHash =>
    let (answer, st) := st.getSession shared.digest session.sessionId ""
    (.writing token session response newHash (answer.toOption.getD { sessionId := session.sessionId }), st)
  | .writing token session response newHash found =>
    (.accepted token ⟨session.sessionId, response⟩,
      st.putSession { found with refreshTokenHash := some newHash } 86400)
  | .accepted token response => (.accepted token response, st)
  | .refused e => (.refused e, st)

/-- The stages are the handler: one step of a stage is one call of its program. -/
theorem program_step (stage : Stage) (st : AuthState) :
    Program.step (memoryStore shared.digest) (stage.program shared) st =
      ((stage.step shared st).1.program shared, (stage.step shared st).2) := by
  cases stage with
  | opening body =>
    show Program.step _ (authenticationRefresh shared body) st =
      ((Stage.ofExcept ((openToken shared body st.unixSecs).map _)).program shared, st)
    unfold authenticationRefresh openToken
    cases openRefresh shared body with
    | error e => rfl
    | ok opened =>
      refine Prod.ext ?_ rfl
      show ((lift (presentedToken shared opened.1 opened.2 st.unixSecs) : AuthRoutine _) >>= fun presented =>
        refreshSession shared presented.1 presented.2.1 presented.2.2 st.unixSecs) = _
      show _ = Stage.program shared (.ofExcept ((presentedToken shared opened.1 opened.2 st.unixSecs).map _))
      cases presentedToken shared opened.1 opened.2 st.unixSecs with
      | error e => rfl
      | ok presented => rfl
  | looking token claims fromDid now =>
    refine Prod.ext ?_ rfl
    show ((lift ((st.getSession shared.digest claims.sessionId fromDid).1.mapError authStorageError) :
      AuthRoutine _) >>= fun session => lift (checkRefreshSession session) >>= fun _ => _) =
        (Stage.ofExcept (looked token now (st.getSession shared.digest claims.sessionId fromDid).1)).program shared
    unfold looked
    cases (st.getSession shared.digest claims.sessionId fromDid).1 with
    | error e => rfl
    | ok session =>
      show ((lift (checkRefreshSession session) : AuthRoutine _) >>= fun _ => _) =
        Stage.program shared (.ofExcept (checkRefreshSession session >>= fun _ => _))
      cases checkRefreshSession session with
      | error e => rfl
      | ok _ => rfl
  | comparing token session now =>
    refine Prod.ext ?_ rfl
    show ((lift (checkReuse shared token (st.storedHash shared session.sessionId)) : AuthRoutine _) >>= fun _ =>
      lift (createTokens _ _ _ _) >>= fun _ => _) =
        (Stage.ofExcept (compared shared token session now (st.storedHash shared session.sessionId))).program shared
    unfold compared
    cases checkReuse shared token (st.storedHash shared session.sessionId) with
    | error e => rfl
    | ok _ =>
      show ((lift (createTokens shared session.did session.sessionId now) : AuthRoutine _) >>= fun _ => _) =
        Stage.program shared (.ofExcept (createTokens shared session.did session.sessionId now >>= fun _ => _))
      cases createTokens shared session.did session.sessionId now with
      | error e => rfl
      | ok minted => rfl
  | reading token session response newHash => rfl
  | writing token session response newHash found => rfl
  | accepted token response => rfl
  | refused e => rfl

/-! ## Many of them -/

/-- The requests on their way, and the state they share. -/
structure RefreshPool where
  state : AuthState
  requests : List Stage

/-- The next call of a request, a new reading of the two clocks, or a change of the accounts. -/
inductive PoolEvent
  | turn (i : ℕ)
  | clock (unixSecs elapsed : ℕ)
  | accounts (store : MemoryState)

def RefreshPool.start (st : AuthState) (bodies : List String) : RefreshPool := ⟨st, bodies.map .opening⟩

def RefreshPool.step (pool : RefreshPool) : PoolEvent → RefreshPool
  | .turn i =>
    match pool.requests[i]? with
    | some stage => ⟨(stage.step shared pool.state).2, pool.requests.set i (stage.step shared pool.state).1⟩
    | none => pool
  | .clock unixSecs elapsed =>
      { pool with state := { pool.state with unixSecs, instant := pool.state.instant + elapsed } }
  | .accounts store => { pool with state := { pool.state with store } }

/-- The states of the runs of these requests whose steps are all `ok`. -/
inductive RefreshPool.Run (ok : RefreshPool → PoolEvent → Prop) (pool₀ : RefreshPool) : RefreshPool → Prop
  | start : Run ok pool₀ pool₀
  | step {pool : RefreshPool} (e : PoolEvent) : Run ok pool₀ pool → ok pool e → Run ok pool₀ (pool.step shared e)

/-- The token of a request that has passed the check against reuse. -/
def Stage.passed : Stage → Option String
  | .reading token _ _ _ => some token
  | .writing token _ _ _ _ => some token
  | .accepted token _ => some token
  | _ => none

/-- The request has passed the check on this session and not yet written its new hash. -/
def Stage.rotates (sessionId : String) : Stage → Bool
  | .reading _ session _ _ => session.sessionId = sessionId
  | .writing _ session _ _ _ => session.sessionId = sessionId
  | _ => false

/-- A token of the session that expires when a token made at `now` does. -/
def sameExpiry (session : Session) (now : ℕ) (token : String) : Bool :=
  match shared.jwtDecode token with
  | .ok claims => claims.sessionId = session.sessionId && claims.exp = now + refreshExpiry shared
  | .error _ => false

/-- A request at the check: there is a hash to check against, and if it is the token's then no
request is between its check and its write on the session, and neither this token nor one that has
passed expires when the new one will. -/
def Stage.Undisturbed (pool : RefreshPool) : Stage → Prop
  | .comparing token session now =>
      pool.state.storedHash shared session.sessionId ≠ none ∧
      (pool.state.storedHash shared session.sessionId = some (shared.digest token) →
        (∀ stage ∈ pool.requests, stage.rotates session.sessionId = false) ∧
        sameExpiry shared session now token = false ∧
        ∀ stage ∈ pool.requests, ∀ t ∈ stage.passed, sameExpiry shared session now t = false)
  | _ => True

def RotatesAlone (pool : RefreshPool) : PoolEvent → Prop
  | .turn i => ∀ stage ∈ pool.requests[i]?, stage.Undisturbed shared pool
  | _ => True

instance (pool : RefreshPool) (stage : Stage) : Decidable (stage.Undisturbed shared pool) := by
  cases stage <;> unfold Stage.Undisturbed <;> infer_instance

instance (pool : RefreshPool) (e : PoolEvent) : Decidable (RotatesAlone shared pool e) := by
  cases e <;> unfold RotatesAlone <;> infer_instance

/-! ## What the check keeps -/

/-- Where a request stands in the rotation of its session's secret. -/
def Stage.phase : Stage → Phase String String
  | .reading token session _ newHash => .replacing session.sessionId (shared.digest token) newHash
  | .writing token session _ newHash _ => .replacing session.sessionId (shared.digest token) newHash
  | .accepted token response => .done response.sessionId (shared.digest token)
  | _ => .idle

/-- The token names this session. -/
def Names (token sessionId : String) : Prop :=
  ∃ claims, shared.jwtDecode token = .ok claims ∧ claims.sessionId = sessionId

/-- What a request has read belongs to its token's session. -/
def Stage.Bound : Stage → Prop
  | .looking token claims _ _ => shared.jwtDecode token = .ok claims
  | .comparing token session _ => Names shared token session.sessionId
  | .reading token session _ _ => Names shared token session.sessionId
  | .writing token session _ _ found => Names shared token session.sessionId ∧ found.sessionId = session.sessionId
  | .accepted token response => Names shared token response.sessionId
  | _ => True

/-- The stored hash of a session, lapsed or not. -/
def AuthState.currentHash (st : AuthState) (sessionId : String) : Option String :=
  (st.sessions.get sessionId).bind fun record => record.session.refreshTokenHash

/-- The hashes shown so far are one for each refresh, and every stage is bound to its session. -/
structure RefreshPool.OneTime (pool : RefreshPool) : Prop where
  rotation : Rotation.OneTime pool.state.currentHash (pool.requests.map (Stage.phase shared))
  bound : ∀ stage ∈ pool.requests, stage.Bound shared

variable {shared} {pool : RefreshPool} {st : AuthState} {i : ℕ}

variable {now : ℕ} {token fromDid : String} {claims : SessionClaims}

theorem presentedToken_decodes {envelope : MetaEnvelope} {msg : Message}
    (h : presentedToken shared envelope msg now = .ok (token, claims, fromDid)) :
    shared.jwtDecode token = .ok claims := by
  unfold presentedToken at h
  obtain ⟨-, -, h⟩ := bind_eq_ok_iff.1 h
  obtain ⟨token', -, h⟩ := bind_eq_ok_iff.1 h
  obtain ⟨claims', hclaims, h⟩ := bind_eq_ok_iff.1 h
  rw [mapError_eq_ok_iff] at hclaims
  split at h
  · cases h
  · split at h
    · obtain ⟨rfl, rfl, -⟩ : token' = token ∧ claims' = claims ∧ _ := by simpa [pure, Except.pure] using h
      exact hclaims
    · cases h

theorem openToken_decodes {body : String} (h : openToken shared body now = .ok (token, claims, fromDid)) :
    shared.jwtDecode token = .ok claims := by
  unfold openToken at h
  obtain ⟨⟨envelope, msg⟩, -, h⟩ := bind_eq_ok_iff.1 h
  exact presentedToken_decodes h

variable {sessionId : String}

theorem createTokens_hash {did newHash : String} {response : AuthorizationResponse}
    (h : createTokens shared did sessionId now = .ok (response, newHash)) :
    newHash = shared.digest response.refreshToken ∧
    shared.jwtEncode ⟨"ATM", did, sessionId, now + refreshExpiry shared⟩ = .ok response.refreshToken := by
  unfold createTokens at h
  obtain ⟨⟨accessToken, accessExpiresAt⟩, -, h⟩ := bind_eq_ok_iff.1 h
  obtain ⟨⟨refreshToken, refreshExpiresAt, hash⟩, hcreate, h⟩ := bind_eq_ok_iff.1 h
  obtain ⟨rfl, rfl⟩ := Prod.mk.inj (pure_eq_ok_iff.1 h)
  unfold createRefreshToken at hcreate
  split at hcreate
  · rename_i token hencode
    obtain ⟨rfl, -, rfl⟩ : token = refreshToken ∧ _ ∧ shared.digest token = hash := by simpa using hcreate
    exact ⟨rfl, hencode⟩
  · cases hcreate

variable {hash : String}

theorem storedHash_eq_some (h : st.storedHash shared sessionId = some hash) :
    st.currentHash sessionId = some hash := by
  unfold AuthState.storedHash at h
  rcases getSession_cases shared.digest st sessionId "" with ⟨record, hget, -, heq⟩ | ⟨e, st', heq, -⟩
  · rw [heq] at h
    unfold AuthState.currentHash
    rw [hget]
    exact h
  · rw [heq] at h
    cases h

theorem currentHash_of_getSession {did id : String}
    (h : (st.getSession shared.digest sessionId did).2.currentHash id = some hash) :
    st.currentHash id = some hash := by
  unfold AuthState.currentHash at h ⊢
  obtain ⟨record, hget, hhash⟩ := Option.bind_eq_some_iff.1 h
  rw [get_of_getSession shared.digest hget]
  exact hhash

theorem currentHash_putSession (st : AuthState) (session : Session) (ttl : ℕ) :
    (st.putSession session ttl).currentHash =
      Function.update st.currentHash session.sessionId session.refreshTokenHash := by
  funext id
  unfold AuthState.currentHash AuthState.putSession
  by_cases hid : id = session.sessionId
  · subst hid
    simp [SessionTable.insert]
  · simp [SessionTable.insert, Function.update_of_ne hid]

variable {stage : Stage}

open RefreshPool

theorem RefreshPool.OneTime.quiet (h : pool.OneTime shared) {stage' : Stage} {st' : AuthState}
    (hstage : pool.requests[i]? = some stage) (hphase : stage'.phase shared = stage.phase shared)
    (hbound : stage'.Bound shared)
    (hcurrent : ∀ id hash, st'.currentHash id = some hash → pool.state.currentHash id = some hash) :
    OneTime shared ⟨st', pool.requests.set i stage'⟩ := by
  refine ⟨?_, ?_⟩
  · show Rotation.OneTime _ ((pool.requests.set i stage').map _)
    have hsame : (pool.requests.set i stage').map (Stage.phase shared) = pool.requests.map (Stage.phase shared) := by
      rw [map_set, hphase]
      apply ext_getElem?
      intro j
      by_cases hij : i = j
      · subst hij
        rw [getElem?_set_self (by simpa using (List.getElem?_eq_some_iff.1 hstage).1), getElem?_map, hstage]
        rfl
      · rw [getElem?_set_ne hij]
    rw [hsame]
    exact h.rotation.forget hcurrent
  · intro s hs
    rcases mem_set_cases hs with rfl | hmem
    · exact hbound
    · exact h.bound s hmem

variable {session : Session}

theorem compared_eq_ok {storedHash : Option String}
    (h : compared shared token session now storedHash = .ok stage) :
    (storedHash = none ∨ storedHash = some (shared.digest token)) ∧ ∃ response newHash, createTokens shared
    session.did session.sessionId now = .ok (response, newHash) ∧ stage = .reading token session response
    newHash := by
  unfold compared at h
  obtain ⟨_, hreuse, h⟩ := bind_eq_ok_iff.1 h
  obtain ⟨⟨response, newHash⟩, hcreate, h⟩ := bind_eq_ok_iff.1 h
  refine ⟨?_, response, newHash, hcreate, (pure_eq_ok_iff.1 h).symm⟩
  unfold checkReuse at hreuse
  split at hreuse
  · cases hreuse
  · rename_i hany
    cases storedHash with
    | none => exact .inl rfl
    | some stored =>
      right
      by_contra hne
      exact hany (by simpa using fun heq => hne (by rw [heq]))

theorem RefreshPool.OneTime.ofExcept (h : pool.OneTime shared) {st' : AuthState}
    {outcome : Except MediatorError Stage} (hstage : pool.requests[i]? = some stage)
    (hidle : stage.phase shared = .idle) (houtcome : ∀ stage', outcome = .ok stage' → stage'.phase shared = .idle ∧
    stage'.Bound shared) (hcurrent : ∀ id hash, st'.currentHash id = some hash → pool.state.currentHash id =
    some hash) : OneTime shared ⟨st', pool.requests.set i (.ofExcept outcome)⟩ := by
  cases outcome with
  | error e => exact h.quiet hstage hidle.symm trivial hcurrent
  | ok stage' =>
    obtain ⟨hphase, hbound⟩ := houtcome stage' rfl
    exact h.quiet hstage (hphase.trans hidle.symm) hbound hcurrent

theorem phase_shown (h : (stage.phase shared).shown = some (sessionId, hash)) : ∃ token, stage.passed =
    some token ∧ hash = shared.digest token := by
  cases stage with
  | reading token session response newHash
  | writing token session response newHash found
  | accepted token response => exact ⟨token, rfl, (Prod.mk.inj (Option.some.inj h)).2.symm⟩
  | _ => cases h

theorem rotates_of_phase {shown next : String} (h : stage.phase shared = .replacing sessionId shown next) :
    stage.rotates sessionId = true := by
  cases stage with
  | reading token session response newHash | writing token session response newHash found =>
    obtain ⟨rfl, -, -⟩ := Phase.replacing.inj h
    simp [Stage.rotates]
  | _ => cases h

theorem RefreshPool.OneTime.compare (hdigest : Function.Injective shared.digest)
    (hjwt : ∀ claims token, shared.jwtEncode claims = .ok token → shared.jwtDecode token = .ok claims)
    (h : pool.OneTime shared) (hstage : pool.requests[i]? = some (.comparing token session now))
    (halone : RotatesAlone shared pool (.turn i)) : OneTime shared (pool.step shared (.turn i)) := by
  have hnames : Names shared token session.sessionId := h.bound _ (mem_of_getElem? hstage)
  obtain ⟨hsome, halone⟩ := halone _ hstage
  simp only [step, hstage, Stage.step]
  cases hcompared : compared shared token session now (pool.state.storedHash shared session.sessionId) with
  | error e => exact h.quiet hstage rfl trivial fun _ _ => currentHash_of_getSession
  | ok stage =>
    obtain ⟨hstored, response, newHash, hcreate, rfl⟩ := compared_eq_ok hcompared
    have hcurrent := hstored.resolve_left hsome
    obtain ⟨hothers, hne, hfresh⟩ := halone hcurrent
    obtain ⟨rfl, hencode⟩ := createTokens_hash hcreate
    -- the new token is none of those it must not be, since it expires at another second
    have hother : ∀ t, sameExpiry shared session now t = false →
        shared.digest response.refreshToken ≠ shared.digest t := by
      intro t ht heq
      obtain rfl := hdigest heq
      simp [sameExpiry, hjwt _ _ hencode] at ht
    refine ⟨?_, ?_⟩
    · show Rotation.OneTime _ ((pool.requests.set i _).map _)
      rw [map_set]
      refine (h.rotation.present (storedHash_eq_some hcurrent) ?_ (hother token hne) ?_).forget fun _ _ =>
        currentHash_of_getSession
      · intro v' w' hmem
        obtain ⟨stage, hstage', hphase⟩ := mem_map.1 hmem
        have hrotates := hothers stage hstage'
        rw [rotates_of_phase hphase] at hrotates
        cases hrotates
      · intro q hq u hshown
        obtain ⟨stage, hstage', rfl⟩ := mem_map.1 hq
        obtain ⟨t, hpassed, rfl⟩ := phase_shown hshown
        exact hother t (hfresh stage hstage' t hpassed)
    · intro stage hmem
      rcases mem_set_cases hmem with rfl | hmem
      · exact hnames
      · exact h.bound stage hmem

/-- A turn whose rotation stands alone keeps the shown hashes one for each request. -/
theorem RefreshPool.OneTime.turn (hdigest : Function.Injective shared.digest)
    (hjwt : ∀ claims token, shared.jwtEncode claims = .ok token → shared.jwtDecode token = .ok claims)
    (h : pool.OneTime shared) (halone : RotatesAlone shared pool (.turn i)) :
    OneTime shared (pool.step shared (.turn i)) := by
  cases hstage : pool.requests[i]? with
  | none =>
    simp only [step, hstage]
    exact h
  | some stage =>
    have hbound := h.bound stage (mem_of_getElem? hstage)
    -- hashes are compared in `comparing` and replaced in `writing`; the other stages leave them alone
    cases stage with
    | opening body =>
      simp only [step, hstage, Stage.step]
      refine h.ofExcept hstage rfl ?_ fun _ _ hhash => hhash
      intro stage' hstage'
      cases hopen : openToken shared body pool.state.unixSecs with
      | error e =>
        rw [hopen] at hstage'
        cases hstage'
      | ok opened =>
        rw [hopen] at hstage'
        obtain ⟨token, claims, fromDid⟩ := opened
        cases hstage'
        exact ⟨rfl, openToken_decodes hopen⟩
    | looking token claims fromDid now =>
      simp only [step, hstage, Stage.step]
      refine h.ofExcept hstage rfl ?_ fun _ _ => currentHash_of_getSession
      intro stage' hstage'
      obtain ⟨session, hsession, hrest⟩ := bind_eq_ok_iff.1 hstage'
      obtain ⟨_, -, hrest⟩ := bind_eq_ok_iff.1 hrest
      obtain rfl := pure_eq_ok_iff.1 hrest
      refine ⟨rfl, claims, hbound, ?_⟩
      rw [mapError_eq_ok_iff] at hsession
      rcases getSession_cases shared.digest pool.state claims.sessionId fromDid with
        ⟨record, hget, -, heq⟩ | ⟨e, st', heq, -⟩
      · rw [heq] at hsession
        rw [← Except.ok.inj hsession, shown_sessionId shared.digest hget]
      · rw [heq] at hsession
        cases hsession
    | comparing token session now => exact h.compare hdigest hjwt hstage halone
    | reading token session response newHash =>
      simp only [step, hstage, Stage.step]
      refine h.quiet hstage rfl ⟨hbound, ?_⟩ fun _ _ => currentHash_of_getSession
      rcases getSession_cases shared.digest pool.state session.sessionId "" with
        ⟨record, hget, -, heq⟩ | ⟨e, st', heq, -⟩
      · rw [heq]
        exact shown_sessionId shared.digest hget ""
      · rw [heq]
        rfl
    | writing token session response newHash found =>
      obtain ⟨hnames, hfound⟩ := hbound
      simp only [step, hstage, Stage.step]
      have hphase : (pool.requests.map (Stage.phase shared))[i]? =
          some (.replacing session.sessionId (shared.digest token) newHash) := by
        rw [getElem?_map, hstage]
        rfl
      refine ⟨?_, ?_⟩
      · show Rotation.OneTime (AuthState.currentHash (pool.state.putSession _ _)) ((pool.requests.set i _).map _)
        rw [currentHash_putSession, map_set]
        rw [hfound]
        exact h.rotation.replace hphase
      · intro stage hmem
        rcases mem_set_cases hmem with rfl | hmem
        · exact hnames
        · exact h.bound stage hmem
    | accepted token response =>
      simp only [step, hstage, Stage.step]
      exact h.quiet hstage rfl hbound fun _ _ hhash => hhash
    | refused e =>
      simp only [step, hstage, Stage.step]
      exact h.quiet hstage rfl trivial fun _ _ hhash => hhash

/-- In every run whose rotations stand alone. -/
theorem RefreshPool.OneTime.run (hdigest : Function.Injective shared.digest)
    (hjwt : ∀ claims token, shared.jwtEncode claims = .ok token → shared.jwtDecode token = .ok claims)
    {bodies : List String} (h : Run shared (RotatesAlone shared) (.start st bodies) pool) :
    pool.OneTime shared := by
  induction h with
  | start =>
    refine ⟨.start ?_, ?_⟩
    · intro p hp
      obtain ⟨stage, hstage, rfl⟩ := mem_map.1 hp
      obtain ⟨body, -, rfl⟩ := mem_map.1 hstage
      rfl
    · intro stage hstage
      obtain ⟨body, -, rfl⟩ := mem_map.1 hstage
      trivial
  | step e _ halone ih =>
    cases e with
    | turn i => exact ih.turn hdigest hjwt halone
    | clock unixSecs elapsed | accounts store => exact ⟨ih.rotation, ih.bound⟩

/-- A refresh token is accepted once: in every run in which no request is checked while another one
rotates the same session, in which the stored hash is there at every check, and in which no session
gets two tokens for one second, two accepted requests with one token are the same request. -/
theorem refresh_token_accepted_once (hdigest : Function.Injective shared.digest)
    (hjwt : ∀ claims token, shared.jwtEncode claims = .ok token → shared.jwtDecode token = .ok claims)
    {bodies : List String} (hrun : Run shared (RotatesAlone shared) (.start st bodies) pool) {j : ℕ}
    {token : String} {r r' : SuccessResponse AuthorizationResponse}
    (hi : pool.requests[i]? = some (.accepted token r)) (hj : pool.requests[j]? = some (.accepted token r')) :
    i = j := by
  have h := OneTime.run hdigest hjwt hrun
  obtain ⟨claims, hclaims, hid⟩ := h.bound _ (mem_of_getElem? hi)
  obtain ⟨claims', hclaims', hid'⟩ := h.bound _ (mem_of_getElem? hj)
  obtain rfl : claims = claims' := Except.ok.inj (hclaims.symm.trans hclaims')
  refine h.rotation.once i j (.done r.sessionId (shared.digest token)) (.done r'.sessionId (shared.digest token))
    (r.sessionId, shared.digest token) ?_ ?_ rfl ?_
  · rw [getElem?_map, hi]
    rfl
  · rw [getElem?_map, hj]
    rfl
  · rw [← hid, hid']
    rfl

variable (shared) in
def RefreshPool.steps (pool : RefreshPool) (events : List PoolEvent) : RefreshPool :=
  events.foldl (RefreshPool.step shared) pool

variable (shared) in
/-- Every step of these events is `RotatesAlone`. -/
def RefreshPool.undisturbed (pool : RefreshPool) : List PoolEvent → Bool
  | [] => true
  | e :: events => decide (RotatesAlone shared pool e) && RefreshPool.undisturbed (pool.step shared e) events

theorem run_steps {pool₀ : RefreshPool} {events : List PoolEvent}
    (hrun : Run shared (RotatesAlone shared) pool₀ pool)
    (h : pool.undisturbed shared events = true) :
    Run shared (RotatesAlone shared) pool₀ (pool.steps shared events) := by
  induction events generalizing pool with
  | nil => exact hrun
  | cons e events ih =>
    rw [undisturbed, Bool.and_eq_true, decide_eq_true_iff] at h
    exact ih (.step e hrun h.1) h.2

end

/-! ## One session -/

/-- Tokens for Bob's session are as long as their expiry is late. -/
def bobEncode (sessionId : String) (claims : SessionClaims) : Except String String :=
  if claims.aud = "ATM" ∧ claims.sub = "did:ex:bob" ∧ claims.sessionId = sessionId then
    .ok (String.ofList (List.replicate claims.exp 'x'))
  else .error "unknown session"

def bobDecode (sessionId token : String) : Except String SessionClaims :=
  .ok ⟨"ATM", "did:ex:bob", sessionId, token.length⟩

theorem bobDecode_of_bobEncode (sessionId : String) (claims : SessionClaims) (token : String)
    (h : bobEncode sessionId claims = .ok token) : bobDecode sessionId token = .ok claims := by
  unfold bobEncode at h
  split at h
  · rename_i hclaims
    obtain ⟨haud, hsub, hid⟩ := hclaims
    cases h
    obtain ⟨aud, sub, sessionId, exp⟩ := claims
    subst haud hsub hid
    simp [bobDecode]
  · cases h

/-- A mediator for which a request is the token it presents. -/
def bobShared : SharedData Unit where
  security := ⟨default, .explicitDeny, 1, 3⟩
  digest := id
  newEnvelope := fun s => .ok ⟨s, s, none, some "did:ex:bob", true, true, .null, some "did:ex:bob"⟩
  unpack := fun envelope => .ok
    ({ id := "1", typ := "https://affinidi.com/atm/1.0/authenticate/refresh", sender := some "did:ex:bob",
       body := .obj [("refresh_token", .str envelope.raw)], expiresTime := some 1000 },
      { encrypted := true, authenticated := true })
  jwtEncode := bobEncode "s"
  jwtDecode := bobDecode "s"
  base64 := fun _ => .error "unused"
  resolveSigningKey := fun _ => .error "unused"
  verify := fun _ _ _ => false

/-- Bob's session, with the token of second 4. -/
def bobState : AuthState where
  store := default
  sessions := SessionTable.empty.insert
    ⟨{ sessionId := "s", state := .authenticated, did := "did:ex:bob", didHash := "did:ex:bob", authenticated :=
      true,
       refreshTokenHash := some "xxxx" }, 10 ^ 12⟩
  instant := 0
  unixSecs := 5

/-- Two requests with one token, the first to its end, and then the second. -/
def oneAfterTheOther : List PoolEvent :=
  List.replicate 5 (.turn 0) ++ [.clock 6 (10 ^ 9)] ++ List.replicate 5 (.turn 1)

/-- Of two requests with one token in a row, the first is accepted and the second is not. -/
theorem refresh_token_accepted_once_in_a_row :
    let pool := (RefreshPool.start bobState ["xxxx", "xxxx"]).steps bobShared oneAfterTheOther
    (∃ r, pool.requests[0]? = some (.accepted "xxxx" r)) ∧
      ∀ j r, pool.requests[j]? = some (.accepted "xxxx" r) → 0 = j := by
  intro pool
  have hstate : (RefreshPool.start bobState ["xxxx", "xxxx"]).undisturbed bobShared oneAfterTheOther = true ∧
      pool.requests[0]? = some (.accepted "xxxx" ⟨"s", ⟨"xxxxxx", 6, "xxxxxxx", 7⟩⟩) := by
    decide +kernel
  obtain ⟨hundisturbed, haccepted⟩ := hstate
  refine ⟨⟨_, haccepted⟩, fun j r hj => ?_⟩
  exact refresh_token_accepted_once Function.injective_id (bobDecode_of_bobEncode "s")
    (run_steps .start hundisturbed) haccepted hj

/-- Two requests with one token: both read the stored hash before either writes. And two in a row, in
the second in which the token was made: the new token is the old one. -/
theorem refresh_token_accepted_twice :
    (let pool := (RefreshPool.start bobState ["xxxx", "xxxx"]).steps bobShared
        (List.replicate 3 (.turn 0) ++ List.replicate 3 (.turn 1) ++ [.turn 0, .turn 0, .turn 1, .turn 1])
      ∃ r r', pool.requests[0]? = some (.accepted "xxxx" r) ∧ pool.requests[1]? = some (.accepted "xxxx" r')) ∧
    (let pool := (RefreshPool.start { bobState with unixSecs := 2 } ["xxxx", "xxxx"]).steps bobShared
        (List.replicate 5 (.turn 0) ++ List.replicate 5 (.turn 1))
      ∃ r r', pool.requests[0]? = some (.accepted "xxxx" r) ∧ pool.requests[1]? = some (.accepted "xxxx" r')) := by
  refine ⟨⟨⟨"s", ⟨"xxxxxx", 6, "xxxxxxx", 7⟩⟩, ⟨"s", ⟨"xxxxxx", 6, "xxxxxxx", 7⟩⟩, ?_⟩,
    ⟨⟨"s", ⟨"xxx", 3, "xxxx", 4⟩⟩, ⟨"s", ⟨"xxx", 3, "xxxx", 4⟩⟩, ?_⟩⟩
  · decide +kernel
  · decide +kernel

end AffinidiTdk.Auth
