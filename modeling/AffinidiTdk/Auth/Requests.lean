/-
Requests of any clients that overlap: challenges, responses over DIDComm and TSP, refreshes, and API
or WebSocket requests with a token (`common/jwt_auth.rs`). A request on its way is what is left of
its handler. Which function made a token is kept beside the state; no handler sees it.
-/
import AffinidiTdk.Auth.OneTime

namespace AffinidiTdk.Auth

open Acl Store Didcomm Program

/-! ## The token of an API request -/

/-- The refusals of the login and of the session extractor. -/
inductive AuthError
  | wrongCredentials
  | missingCredentials
  | invalidToken
  | expiredToken
  | internalServerError (message : String)
  | blocked

/-- What follows from the session of the claims. -/
def authorise (claims : SessionClaims) : Except MediatorError Session → Except AuthError Session
  | .error e => .error (.internalServerError ("Couldn't get session from database! Reason: " ++ e.display))
  | .ok session =>
    if session.did ≠ claims.sub then .error .invalidToken
    else if !grants session.acls .notBlocked then .error .blocked
    else .ok { session with expiresAt := claims.exp }

section

variable {Key : Type} (shared : SharedData Key)

def authenticateToken (token : String) : AuthRoutine (Except AuthError Session) :=
  match shared.jwtDecode token with
  | .error _ => pure (.error .invalidToken)
  | .ok claims => do
    let now ← perform .unixSecs
    if jwtExpIsExpired claims.exp now then return .error .expiredToken
    else
      let found ← attempt (.getSession claims.sessionId claims.sub)
      return authorise claims found

/-- How far an API request is, with the reading of the clock that its token was measured against. -/
inductive ApiStage
  | opening (token : String)
  | looking (token : String) (claims : SessionClaims) (now : ℕ)
  | authorised (token : String) (now : ℕ) (session : Session)
  | rejected (e : AuthError)

def ApiStage.program : ApiStage → AuthRoutine (Except AuthError Session)
  | .opening token => authenticateToken shared token
  | .looking _ claims _ => do
    let found ← attempt (.getSession claims.sessionId claims.sub)
    return authorise claims found
  | .authorised _ _ session => pure (.ok session)
  | .rejected e => pure (.error e)

/-- A token against the clock. -/
def ApiStage.opened (token : String) (now : ℕ) : ApiStage :=
  match shared.jwtDecode token with
  | .error _ => .rejected .invalidToken
  | .ok claims => if jwtExpIsExpired claims.exp now then .rejected .expiredToken else .looking token claims now

def ApiStage.closed (token : String) (now : ℕ) : Except AuthError Session → ApiStage
  | .ok session => .authorised token now session
  | .error e => .rejected e

def ApiStage.step (stage : ApiStage) (st : AuthState) : ApiStage × AuthState :=
  match stage with
  | .opening token => (.opened shared token st.unixSecs, st)
  | .looking token claims now =>
    let (answer, st) := st.getSession shared.digest claims.sessionId claims.sub
    (.closed token now (authorise claims answer), st)
  | .authorised token now session => (.authorised token now session, st)
  | .rejected e => (.rejected e, st)

/-- Stepping the stages is running the handler, call by call. -/
theorem ApiStage.program_step (stage : ApiStage) (st : AuthState) :
    Program.step (memoryStore shared.digest) (stage.program shared) st =
      ((stage.step shared st).1.program shared, (stage.step shared st).2) := by
  cases stage with
  | opening token =>
    simp only [ApiStage.program, ApiStage.step, ApiStage.opened, authenticateToken]
    cases shared.jwtDecode token with
    | error e => rfl
    | ok claims =>
      refine Prod.ext ?_ rfl
      show (if jwtExpIsExpired claims.exp st.unixSecs = true then _ else _) = ApiStage.program shared
        (if jwtExpIsExpired claims.exp st.unixSecs = true then .rejected .expiredToken
          else .looking token claims st.unixSecs)
      split
      · rfl
      · rfl
  | looking token claims now =>
    refine Prod.ext ?_ rfl
    simp only [ApiStage.step]
    show pure (authorise claims (st.getSession shared.digest claims.sessionId claims.sub).1) = _
    cases authorise claims (st.getSession shared.digest claims.sessionId claims.sub).1 with
    | error e => rfl
    | ok session => rfl
  | authorised token now session => rfl
  | rejected e => rfl

/-! ## A login in two parts -/

/-- What a response to a challenge has come to when its tokens are made. -/
structure Login where
  session : Session
  newSessionId : String
  now : ℕ

/-- The two ways to answer a challenge. -/
inductive LoginProtocol
  | didcomm
  | tsp

/-- `authentication_response` up to its tokens. -/
def didcommLogin (newSessionId body : String) : AuthRoutine Login := do
  let envelope ← lift ((shared.newEnvelope body).mapError fun e =>
    authProblemFor 28 "authentication.response.parse" "authentication response couldn't be parsed:" e 400)
  lift (requireSignedAndEncrypted envelope.authenticated envelope.encrypted)
  let fromDid ← allowedSender shared envelope
  let msg ← lift (unpackAuthMessage shared envelope)
  lift (requireSameSender envelope msg)
  lift (requireType msg "https://affinidi.com/atm/1.0/authenticate")
  let now ← perform .unixSecs
  lift (requireFresh msg now)
  let challenge ← lift (parseChallenge msg)
  let session ← performOr authStorageError (.getSession challenge.sessionId fromDid)
  lift (checkChallengeSession msg session)
  return ⟨session, newSessionId, now⟩

/-- `tsp_authentication_response` up to its tokens. -/
def tspLogin (newSessionId : String) (body : TspAuthenticateBody) : AuthRoutine Login := do
  if !Text.startsWith "did:" body.vid then
    fail (.problem 29 body.sessionId none .error .protocol "authentication.tsp.invalid_vid"
      "TSP authentication requires a `did:`-based VID" [] 400)
  let session ← perform (.getSession body.sessionId body.vid)
  lift (checkTspSession body session)
  lift (verifyChallenge shared body session)
  let now ← perform .unixSecs
  return ⟨session, newSessionId, now⟩

def Login.createTokens (login : Login) : Except MediatorError (AuthorizationResponse × String) :=
  Auth.createTokens shared login.session.did login.newSessionId login.now

/-- What follows the tokens. -/
def LoginProtocol.store (login : Login) (response : AuthorizationResponse) (refreshTokenHash : String) :
    LoginProtocol → AuthRoutine (SuccessResponse AuthorizationResponse)
  | .didcomm => do
    (updateSessionAuthenticated shared.digest login.session.sessionId login.newSessionId login.session.did
      refreshTokenHash).mapError authStorageError
    registerDidAndSetup shared login.session.didHash
    return ⟨login.newSessionId, response⟩
  | .tsp => do
    updateSessionAuthenticated shared.digest login.session.sessionId login.newSessionId login.session.did
      refreshTokenHash
    return ⟨login.newSessionId, response⟩

/-- From the tokens on. -/
def LoginProtocol.finish (protocol : LoginProtocol) (login : Login) :
    AuthRoutine (SuccessResponse AuthorizationResponse) := do
  let (response, refreshTokenHash) ← lift (login.createTokens shared)
  protocol.store shared login response refreshTokenHash

theorem authenticationResponse_eq (newSessionId body : String) :
    authenticationResponse shared newSessionId body =
      didcommLogin shared newSessionId body >>= LoginProtocol.finish shared .didcomm := by
  unfold authenticationResponse didcommLogin
  simp only [Program.bind_assoc]
  rfl

theorem tspAuthenticationResponse_eq (newSessionId : String) (body : TspAuthenticateBody) :
    tspAuthenticationResponse shared newSessionId body =
      tspLogin shared newSessionId body >>= LoginProtocol.finish shared .tsp := by
  unfold tspAuthenticationResponse tspLogin
  cases Text.startsWith "did:" body.vid with
  | true =>
    simp only [Bool.not_true, Bool.false_eq_true, if_false, Program.bind_assoc]
    rfl
  | false => rfl

/-! ## Requests -/

/-- The two tokens a login hands out. -/
inductive TokenKind
  | access
  | refresh
  deriving DecidableEq

/-- A token, the function that made it, and when. -/
structure Minted where
  kind : TokenKind
  token : String
  madeAt : ℕ

/-- The two tokens of a session, as `_create_access_token` and `_create_refresh_token` made them. -/
def AuthorizationResponse.minted (response : AuthorizationResponse) (now : ℕ) : List Minted :=
  [⟨.access, response.accessToken, now⟩, ⟨.refresh, response.refreshToken, now⟩]

/-- The tokens that one step of a refresh makes. -/
def Stage.minted : Stage → Stage → List Minted
  | .comparing _ _ now, .reading _ _ response _ => response.minted now
  | _, _ => []

/-- A request on its way. A response to a challenge is `login` until its tokens are made, and then `storing`. -/
inductive Request
  | challenge (rest : AuthRoutine (SuccessResponse AuthenticationChallenge))
  | login (protocol : LoginProtocol) (rest : AuthRoutine Login)
  | storing (rest : AuthRoutine (SuccessResponse AuthorizationResponse))
  | refresh (stage : Stage)
  | api (stage : ApiStage)

/-- A response to a challenge with the tokens that are made now. -/
def Request.made (protocol : LoginProtocol) (login : Login) : Request × List Minted :=
  match login.createTokens shared with
  | .ok (response, hash) => (.storing (protocol.store shared login response hash), response.minted login.now)
  | .error e => (.storing (fail e), [])

/-- A response to a challenge after a call. -/
def Request.ofLogin (protocol : LoginProtocol) : AuthRoutine Login → Request × List Minted
  | .ret (.ok finished) => Request.made shared protocol finished
  | .ret (.error e) => (.storing (fail e), [])
  | rest => (.login protocol rest, [])

/-- The next call of a request, and the tokens it makes. -/
def Request.step (request : Request) (st : AuthState) : (Request × List Minted) × AuthState :=
  match request with
  | .challenge rest =>
    let (rest, st) := Program.step (memoryStore shared.digest) rest st
    ((.challenge rest, []), st)
  | .login protocol rest =>
    let (rest, st) := Program.step (memoryStore shared.digest) rest st
    (Request.ofLogin shared protocol rest, st)
  | .storing rest =>
    let (rest, st) := Program.step (memoryStore shared.digest) rest st
    ((.storing rest, []), st)
  | .refresh stage =>
    let (after, st) := stage.step shared st
    ((.refresh after, stage.minted after), st)
  | .api stage =>
    let (stage, st) := stage.step shared st
    ((.api stage, []), st)

/-! ## The steps are the handlers -/

/-- The requests a client can make, with the ids the server draws for them. -/
inductive ClientRequest
  | challenge (sessionId challenge did : String)
  | response (newSessionId body : String)
  | tspResponse (newSessionId : String) (body : TspAuthenticateBody)
  | refresh (body : String)
  | api (token : String)

/-- What the server gives back for a request. -/
inductive Answer
  | challenge (response : SuccessResponse AuthenticationChallenge)
  | tokens (response : SuccessResponse AuthorizationResponse)
  | api (outcome : Except AuthError Session)

def ClientRequest.handler : ClientRequest → AuthRoutine Answer
  | .challenge sessionId nonce did => do return .challenge (← authenticationChallenge shared sessionId nonce did)
  | .response newSessionId body => do return .tokens (← authenticationResponse shared newSessionId body)
  | .tspResponse newSessionId body => do return .tokens (← tspAuthenticationResponse shared newSessionId body)
  | .refresh body => do return .tokens (← authenticationRefresh shared body)
  | .api token => do return .api (← authenticateToken shared token)

def ClientRequest.arrive : ClientRequest → Request
  | .challenge sessionId nonce did => .challenge (authenticationChallenge shared sessionId nonce did)
  | .response newSessionId body => .login .didcomm (didcommLogin shared newSessionId body)
  | .tspResponse newSessionId body => .login .tsp (tspLogin shared newSessionId body)
  | .refresh body => .refresh (.opening body)
  | .api token => .api (.opening token)

/-- What is left of the handler of a request. -/
def Request.program : Request → AuthRoutine Answer
  | .challenge rest => do return .challenge (← rest)
  | .login protocol rest => do return .tokens (← rest >>= protocol.finish shared)
  | .storing rest => do return .tokens (← rest)
  | .refresh stage => do return .tokens (← stage.program shared)
  | .api stage => do return .api (← stage.program shared)

open Request

theorem ClientRequest.program_arrive (request : ClientRequest) :
    (request.arrive shared).program shared = request.handler shared := by
  cases request with
  | response newSessionId body =>
    simp only [ClientRequest.arrive, program, ClientRequest.handler, authenticationResponse_eq]
  | tspResponse newSessionId body =>
    simp only [ClientRequest.arrive, program, ClientRequest.handler, tspAuthenticationResponse_eq]
  | _ => rfl

variable {shared} in
theorem run_bind_step {α β : Type} (p : AuthRoutine α) (f : α → AuthRoutine β) (st : AuthState) :
    run (memoryStore shared.digest) ((Program.step (memoryStore shared.digest) p st).1 >>= f)
      (Program.step (memoryStore shared.digest) p st).2 = run (memoryStore shared.digest) (p >>= f) st := by
  rw [run_bind, run_bind, run_step]

theorem Request.run_made (protocol : LoginProtocol) (login : Login) (st : AuthState) :
    run (memoryStore shared.digest) ((made shared protocol login).1.program shared) st =
      run (memoryStore shared.digest) (do return .tokens (← protocol.finish shared login)) st := by
  unfold made LoginProtocol.finish
  cases login.createTokens shared with
  | error e => rfl
  | ok made => rfl

theorem Request.run_ofLogin (protocol : LoginProtocol) (rest : AuthRoutine Login) (st : AuthState) :
    run (memoryStore shared.digest) ((ofLogin shared protocol rest).1.program shared) st =
      run (memoryStore shared.digest) ((login protocol rest).program shared) st := by
  cases rest with
  | ret result =>
    cases result with
    | ok login => exact run_made shared protocol login st
    | error e => rfl
  | call c next => rfl

/-- A turn leaves what the request will answer as it was. -/
theorem Request.run_step (request : Request) (st : AuthState) :
    run (memoryStore shared.digest) ((request.step shared st).1.1.program shared) (request.step shared st).2 =
      run (memoryStore shared.digest) (request.program shared) st := by
  cases request with
  | challenge rest => exact run_bind_step rest _ st
  | login protocol rest =>
    refine (run_ofLogin shared protocol _ _).trans ?_
    simp only [program, Program.bind_assoc]
    exact run_bind_step rest _ st
  | storing rest => exact run_bind_step rest _ st
  | refresh stage =>
    have hstep := Auth.program_step shared stage st
    have hrun := @run_bind_step _ shared _ _ (stage.program shared) (fun r => pure (Answer.tokens r)) st
    rw [hstep] at hrun
    exact hrun
  | api stage =>
    have hstep := ApiStage.program_step shared stage st
    have hrun := @run_bind_step _ shared _ _ (stage.program shared) (fun r => pure (Answer.api r)) st
    rw [hstep] at hrun
    exact hrun

/-! ### Alone -/

/-- A request and the state after its next call. -/
def Request.advance (at_ : Request × AuthState) : Request × AuthState :=
  ((at_.1.step shared at_.2).1.1, (at_.1.step shared at_.2).2)

/-- Some number of calls brings the request to its end. -/
def Request.Ends (request : Request) (st : AuthState) : Prop :=
  ∃ n result, ((advance shared)^[n] (request, st)).1.program shared = .ret result

variable {shared} in
theorem Request.Ends.of_step {request : Request} {st : AuthState}
    (h : (request.step shared st).1.1.Ends shared (request.step shared st).2) : request.Ends shared st := by
  obtain ⟨n, result, hret⟩ := h
  exact ⟨n + 1, result, hret⟩

variable {shared} in
/-- Requests whose steps are the calls of one program. -/
theorem Request.ends_of_calls {σ : Type*} {ρ : Type} (wrap : σ → Request) (left : σ → AuthRoutine ρ)
    {next : σ → AuthState → σ × AuthState} {answer : ρ → Answer}
    (hprogram : ∀ rest, (wrap rest).program shared = left rest >>= fun r => pure (answer r))
    (hnext : ∀ rest st, Program.step (memoryStore shared.digest) (left rest) st =
      (left (next rest st).1, (next rest st).2))
    (hstep : ∀ rest st, advance shared (wrap rest, st) = (wrap (next rest st).1, (next rest st).2))
    (rest : σ) (st : AuthState) : (wrap rest).Ends shared st := by
  -- by the calls that are left
  generalize hleft : left rest = p
  induction p generalizing rest st with
  | ret result =>
    refine ⟨0, result.map answer, (hprogram rest).trans ?_⟩
    rw [hleft]
    cases result <;> rfl
  | call c more ih =>
    have hcall := hnext rest st
    rw [hleft] at hcall
    obtain ⟨n, result, hret⟩ := ih _ _ (next rest st).2 (Prod.mk.inj hcall).1.symm
    exact ⟨n + 1, result, by rw [Function.iterate_succ_apply, hstep]; exact hret⟩

theorem Request.ends_storing (rest : AuthRoutine (SuccessResponse AuthorizationResponse)) (st : AuthState) :
    (storing rest).Ends shared st :=
  ends_of_calls .storing id (fun _ => rfl) (fun _ _ => rfl) (fun _ _ => rfl) rest st

theorem Request.ends_ofLogin (protocol : LoginProtocol) (rest : AuthRoutine Login) (st : AuthState) :
    (ofLogin shared protocol rest).1.Ends shared st := by
  induction rest generalizing st with
  | ret result =>
    cases result with
    | error e => exact ends_storing shared _ st
    | ok login =>
      show (made shared protocol login).1.Ends shared st
      unfold made
      cases login.createTokens shared <;> exact ends_storing shared _ st
  | call c next ih => exact .of_step (ih _ _)

theorem Request.ends (request : Request) (st : AuthState) : request.Ends shared st := by
  cases request with
  | challenge rest => exact ends_of_calls .challenge id (fun _ => rfl) (fun _ _ => rfl) (fun _ _ => rfl) rest st
  | login protocol rest => exact .of_step (ends_ofLogin shared protocol _ _)
  | storing rest => exact ends_storing shared rest st
  | refresh stage => exact ends_of_calls .refresh _ (fun _ => rfl) (Auth.program_step shared) (fun _ _ => rfl) stage st
  | api stage => exact ends_of_calls .api _ (fun _ => rfl) (ApiStage.program_step shared) (fun _ _ => rfl) stage st

/-- **Refinement**: after any number of calls what is left of a request ends as its handler does from where
it arrived, and the calls come to that end. -/
theorem ClientRequest.advance_refines (request : ClientRequest) (st : AuthState) :
    (∀ n, run (memoryStore shared.digest) (((advance shared)^[n] (request.arrive shared, st)).1.program shared)
        ((advance shared)^[n] (request.arrive shared, st)).2 =
      run (memoryStore shared.digest) (request.handler shared) st) ∧
    ∃ n, ((advance shared)^[n] (request.arrive shared, st)).1.program shared =
        .ret (run (memoryStore shared.digest) (request.handler shared) st).1 ∧
      ((advance shared)^[n] (request.arrive shared, st)).2 =
        (run (memoryStore shared.digest) (request.handler shared) st).2 := by
  have hsame (n : ℕ) : run (memoryStore shared.digest)
      (((advance shared)^[n] (request.arrive shared, st)).1.program shared)
        ((advance shared)^[n] (request.arrive shared, st)).2 =
      run (memoryStore shared.digest) (request.handler shared) st := by
    induction n with
    | zero =>
      rw [Function.iterate_zero, id, request.program_arrive shared]
    | succ n ih =>
      rw [Function.iterate_succ_apply', ← ih]
      exact run_step shared _ _
  -- where nothing is left to call, the request has the handler's end
  obtain ⟨n, result, hret⟩ := (request.arrive shared).ends shared st
  have hend := hsame n
  rw [hret] at hend
  refine ⟨hsame, n, ?_, ?_⟩
  · rw [hret, ← hend]
    rfl
  · rw [← hend]
    rfl

/-! ## Many of them -/

/-- The requests on their way, the state they share, and the tokens made so far. -/
structure Traffic where
  state : AuthState
  requests : List Request
  minted : List Minted

/-- A new request, the next call of one, a new reading of the two clocks, or a change of the accounts. -/
inductive TrafficEvent
  | arrive (request : ClientRequest)
  | turn (i : ℕ)
  | clock (unixSecs elapsed : ℕ)
  | accounts (store : MemoryState)

def Traffic.step (traffic : Traffic) : TrafficEvent → Traffic
  | .arrive request => { traffic with requests := traffic.requests ++ [request.arrive shared] }
  | .turn i =>
    match traffic.requests[i]? with
    | some request =>
      { state := (request.step shared traffic.state).2
        requests := traffic.requests.set i (request.step shared traffic.state).1.1
        minted := traffic.minted ++ (request.step shared traffic.state).1.2 }
    | none => traffic
  | .clock unixSecs elapsed =>
    { traffic with state := { traffic.state with unixSecs, instant := traffic.state.instant + elapsed } }
  | .accounts store => { traffic with state := { traffic.state with store } }

/-- The states of the runs whose steps are all `ok`. -/
inductive Traffic.Run (ok : Traffic → TrafficEvent → Prop) (traffic₀ : Traffic) : Traffic → Prop
  | start : Run ok traffic₀ traffic₀
  | step {traffic : Traffic} (e : TrafficEvent) :
      Run ok traffic₀ traffic → ok traffic e → Run ok traffic₀ (traffic.step shared e)

end

end AffinidiTdk.Auth
