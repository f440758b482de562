/-
The authentication handlers (`handlers/authenticate/`): a challenge for a DID, the response to it
over DIDComm or TSP, and the refresh of a session's tokens. Every store call and every reading of
the clock is a call of the program. Reading and unpacking a DIDComm envelope, the JWT library, the
keys of a DID and signature verification are parameters; random strings are arguments; metrics and
log lines are left out, and of a success the constant fields.
-/
import AffinidiTdk.Auth.Sessions
import AffinidiTdk.Didcomm.MetaEnvelope

namespace AffinidiTdk.Auth

open Acl Store Didcomm Program

/-! ## Configuration, requests and responses -/

/-- The settings the login handlers read. -/
structure SecurityConfig where
  globalAclDefault : MediatorACLSet
  mediatorAclMode : AccessListModeType
  jwtAccessExpiry : ℕ
  jwtRefreshExpiry : ℕ

/-- What the handlers share: settings, digest, unpacking and the codec of the tokens. -/
structure SharedData (Key : Type) where
  security : SecurityConfig
  digest : String → String
  newEnvelope : String → Except String MetaEnvelope
  unpack : MetaEnvelope → Except String (Message × UnpackMetadata)
  jwtEncode : SessionClaims → Except String String
  /-- Signature, audience and required claims; not the expiry. -/
  jwtDecode : String → Except String SessionClaims
  base64 : String → Except String Bytes
  resolveSigningKey : String → Except String Key
  verify : Bytes → Bytes → Key → Bool

/-- The body of the answer to a challenge request. -/
structure AuthenticationChallenge where
  challenge : String
  sessionId : String

def AuthenticationChallenge.ofJson : Json → Except String AuthenticationChallenge
  | .arr [.str challenge, .str sessionId] => .ok ⟨challenge, sessionId⟩
  | value => do return ⟨← requireStr value "challenge", ← requireStr value "session_id"⟩

/-- A login over TSP: the challenge signed with the key of the VID. -/
structure TspAuthenticateBody where
  vid : String
  sessionId : String
  signature : String

/-- Also the `AuthRefreshResponse`, field by field. -/
structure AuthorizationResponse where
  accessToken : String
  accessExpiresAt : ℕ
  refreshToken : String
  refreshExpiresAt : ℕ
  deriving DecidableEq

/-- The frame of every successful answer. -/
structure SuccessResponse (α : Type) where
  sessionId : String
  data : α
  deriving DecidableEq

/-! ## Errors -/

def authProblem (code : ℕ) (descriptor comment : String) (status : ℕ) : MediatorError :=
  .problem code "" none .error .protocol descriptor comment [] status

/-- With the reason in the comment and in the log. -/
def authProblemFor (code : ℕ) (descriptor comment reason : String) (status : ℕ) : MediatorError :=
  .problemWithLog code "" none .error .protocol descriptor (comment ++ " \x7b1\x7d") [reason] status
    (comment ++ " " ++ reason)

def authStorageError (e : MediatorError) : MediatorError :=
  authProblemFor 14 "me.res.storage.error" "Database transaction error:" e.display 503

def didIsBlocked (sessionId : String) : MediatorError :=
  .problem 25 sessionId none .error .protocol "authentication.blocked" "DID is blocked" [] 403

/-! ## Checks that make no call -/

section Checks

variable {Key : Type} (shared : SharedData Key)

def createAccessToken (did sessionId : String) (expiry now : ℕ) : Except MediatorError (String × ℕ) :=
  match shared.jwtEncode ⟨"ATM", did, sessionId, now + expiry⟩ with
  | .ok token => .ok (token, now + expiry)
  | .error e => .error (.problemWithLog 35 sessionId none .error .protocol "authentication.session.access_token"
      "Couldn't create JWT Access token. Reason: \x7b1\x7d"
        [e] 500 s!"Couldn't create JWT Access token. Reason: {e}")

/-- `_create_refresh_token`, with the digest of the token. -/
def createRefreshToken (did sessionId : String) (expiry now : ℕ) : Except MediatorError (String × ℕ × String) :=
  match shared.jwtEncode ⟨"ATM", did, sessionId, now + expiry⟩ with
  | .ok token => .ok (token, now + expiry, shared.digest token)
  | .error e => .error (.problemWithLog 36 sessionId none .error .protocol "authentication.session.refresh_token"
      "Couldn't create JWT Refresh token. Reason: \x7b1\x7d"
        [e] 500 s!"Couldn't create JWT Refresh token. Reason: {e}")

/-- How long a refresh token lives. -/
def refreshExpiry : ℕ := shared.security.jwtRefreshExpiry - shared.security.jwtAccessExpiry

/-- The two tokens of a session, and the digest of the refresh token. -/
def createTokens (did sessionId : String) (now : ℕ) : Except MediatorError (AuthorizationResponse × String) := do
  let (accessToken, accessExpiresAt) ← createAccessToken shared did sessionId shared.security.jwtAccessExpiry now
  let (refreshToken, refreshExpiresAt, refreshTokenHash) ←
    createRefreshToken shared did sessionId (refreshExpiry shared) now
  return (⟨accessToken, accessExpiresAt, refreshToken, refreshExpiresAt⟩, refreshTokenHash)

def requireSignedAndEncrypted (authenticated encrypted : Bool) : Except MediatorError Unit :=
  if authenticated && encrypted then .ok ()
  else .error (.problemWithLog 86 "" none .error .protocol "authentication.message.not_signed_or_encrypted"
    "DIDComm message MUST be signed (\x7b1\x7d) and encrypted (\x7b2\x7d) for this transaction"
    [toString authenticated, toString encrypted] 400
    s!"DIDComm message MUST be signed ({authenticated}) and encrypted ({encrypted}) for this transaction")

def unpackAuthMessage (envelope : MetaEnvelope) : Except MediatorError Message :=
  match shared.unpack envelope with
  | .ok (msg, metadata) => do
    requireSignedAndEncrypted metadata.authenticated metadata.encrypted
    return msg
  | .error e => .error (authProblemFor 32 "message.unpack" "Failed to unpack message. Reason:" e 403)

def requireType (msg : Message) (typ : String) : Except MediatorError Unit :=
  if msg.typ = typ then .ok ()
  else .error (authProblemFor 30 "message.type.incorrect" "Unexpected message type:" msg.typ 400)

/-- Authentication messages expire, and this one has not. -/
def requireFresh (msg : Message) (now : ℕ) : Except MediatorError Unit :=
  match msg.expiresTime with
  | some expires =>
    if expires ≤ now then
      .error (.problemWithLog 31 "" none .error .protocol "message.expired" "Message has expired: \x7b1\x7d"
        [toString expires] 400 "Message has expired")
    else .ok ()
  | none => .error (authProblem 92 "message.expires_time.missing"
      "Authentication messages must include an expires_time header" 400)

def jwtExpLeewaySecs : ℕ := 60

def jwtExpIsExpired (exp now : ℕ) : Bool := exp + jwtExpLeewaySecs < now

end Checks

/-! ## The challenge -/

section Routines

variable {Key : Type} (shared : SharedData Key)

/-- `authz::authentication_check` for a DID without a session: whether it may connect, and whether it
is known. -/
def authenticationCheck (didHash : String) : AuthRoutine (Bool × Bool) := do
  let acls ← perform (.getDidAcls [didHash] shared.security.mediatorAclMode)
  match acls.aclResponse with
  | acl :: _ => pure (grants acl.acls .notBlocked, true)
  | [] => pure (grants shared.security.globalAclDefault .notBlocked, false)

/-- `POST /authenticate/challenge`, with its two random strings. -/
def authenticationChallenge (sessionId challenge did : String) :
    AuthRoutine (SuccessResponse AuthenticationChallenge) := do
  if !Text.startsWith "did:" did then
    fail (authProblem 29 "authentication.challenge.invalid_did" "Challenge body must include a `did:`-shaped DID"
      400)
  let session : Session := { sessionId, challenge, state := .challengeSent, did, didHash := shared.digest did }
  let (allowed, known) ← authenticationCheck shared session.didHash
  if !allowed then
    fail (didIsBlocked session.sessionId)
  else if !known then
    let _ ← perform (.accountAdd session.didHash shared.security.globalAclDefault)
  createSession session
  return ⟨session.sessionId, ⟨session.challenge, session.sessionId⟩⟩

/-! ## The response over DIDComm -/

/-- The sender of the envelope, if it may connect. -/
def allowedSender (envelope : MetaEnvelope) : AuthRoutine String :=
  match envelope.fromDid with
  | some fromDid => do
    let (allowed, _) ← (authenticationCheck shared (shared.digest fromDid)).mapError authStorageError
    if allowed then pure fromDid else fail (didIsBlocked "")
  | none => fail (authProblem 29 "authentication.response.from"
      "Authentication response message is missing the `from` header" 400)

/-- The plaintext's `from` is the envelope's. -/
def requireSameSender (envelope : MetaEnvelope) (msg : Message) : Except MediatorError Unit :=
  match msg.sender with
  | some sender =>
    if sender ≠ envelope.fromDid.getD "" then
      .error (authProblem 85 "message.from.incorrect"
        "Inner DIDComm plaintext from field does NOT match signing or encryption DID" 400)
    else .ok ()
  | none => .error (authProblem 29 "authentication.response.from" "inner message: Missing the `from` header" 400)

def parseChallenge (msg : Message) : Except MediatorError AuthenticationChallenge :=
  (AuthenticationChallenge.ofJson msg.body).mapError fun e =>
    authProblemFor 28 "authentication.response.parse" "authentication response couldn't be parsed:" e 400

/-- The session is the sender's and awaits a response. -/
def checkChallengeSession (msg : Message) (session : Session) : Except MediatorError Unit :=
  if msg.sender.any fun sender => sender ≠ session.did then
    .error (.problemWithLog 33 "" none .error .protocol "authentication.session.mismatch"
      "DID mismatch during authentication process" [] 400
      ("DID mismatch during authentication process: first_did(" ++ session.did ++ ") second_did(" ++
        msg.sender.getD "" ++ ")"))
  else if session.state ≠ .challengeSent then
    .error (authProblem 34 "authentication.session.invalid"
      "Session is in an invalid state to complete authentication" 400)
  else .ok ()

def registerDidAndSetup (didHash : String) : AuthRoutine Unit := do
  let known ← perform (.accountExists didHash)
  if known then pure ()
  else if shared.security.globalAclDefault.getLocal then
    let _ ← perform (.accountAdd didHash shared.security.globalAclDefault)
  else pure ()

/-- `POST /authenticate`. The new session id is random. -/
def authenticationResponse (newSessionId body : String) : AuthRoutine (SuccessResponse AuthorizationResponse) := do
  let envelope ← lift ((shared.newEnvelope body).mapError fun e =>
    authProblemFor 28 "authentication.response.parse" "authentication response couldn't be parsed:" e 400)
  lift (requireSignedAndEncrypted envelope.authenticated envelope.encrypted)
  let fromDid ← allowedSender shared envelope
  let msg ← lift (unpackAuthMessage shared envelope)
  lift (requireSameSender envelope msg)
  lift (requireType msg "https://affinidi.com/atm/1.0/authenticate")
  let now ← perform .unixSecs
  lift (requireFresh msg now)
  let challenge ← lift (parseChallenge msg)
  let session ← performOr authStorageError (.getSession challenge.sessionId fromDid)
  lift (checkChallengeSession msg session)
  let (response, refreshTokenHash) ← lift (createTokens shared session.did newSessionId now)
  (updateSessionAuthenticated shared.digest session.sessionId newSessionId session.did refreshTokenHash).mapError
    authStorageError
  registerDidAndSetup shared session.didHash
  return ⟨newSessionId, response⟩

/-! ## The response over TSP -/

/-- The session awaits a response, from this VID. -/
def checkTspSession (body : TspAuthenticateBody) (session : Session) : Except MediatorError Unit :=
  if session.state ≠ .challengeSent then
    .error (.problem 34 body.sessionId none .error .protocol "authentication.session.state"
      "Session is not awaiting a challenge response" [] 401)
  else if session.did ≠ body.vid then
    .error (.problem 33 body.sessionId none .error .protocol "authentication.session.mismatch"
      "VID does not match the challenge session" [] 401)
  else .ok ()

def decodeSignature (body : TspAuthenticateBody) : Except MediatorError Bytes := do
  let signature ← (shared.base64 body.signature).mapError fun e =>
    .problem 28 body.sessionId none .error .protocol "authentication.tsp.signature.encoding"
      "Signature is not valid base64url: \x7b1\x7d" [e] 400
  if signature.length = 64 then return signature
  else .error (.problem 28 body.sessionId none .error .protocol "authentication.tsp.signature.length"
    "Ed25519 signature must be 64 bytes" [] 400)

/-- The signature is the VID's, over the challenge of the session. -/
def verifyChallenge (body : TspAuthenticateBody) (session : Session) : Except MediatorError Unit := do
  let signature ← decodeSignature shared body
  let signingKey ← (shared.resolveSigningKey body.vid).mapError fun e =>
    .problem 28 body.sessionId none .error .protocol "authentication.tsp.resolve"
      "Couldn't resolve the VID's keys: \x7b1\x7d" [e] 400
  if shared.verify (utf8 session.challenge) signature signingKey then return ()
  else .error (.problem 32 body.sessionId none .error .protocol "authentication.tsp.signature.invalid"
    "TSP challenge signature verification failed" [] 401)

/-- `POST /tsp/authenticate`. The new session id is random. -/
def tspAuthenticationResponse (newSessionId : String) (body : TspAuthenticateBody) :
    AuthRoutine (SuccessResponse AuthorizationResponse) := do
  if !Text.startsWith "did:" body.vid then
    fail (.problem 29 body.sessionId none .error .protocol "authentication.tsp.invalid_vid"
      "TSP authentication requires a `did:`-based VID" [] 400)
  let session ← perform (.getSession body.sessionId body.vid)
  lift (checkTspSession body session)
  lift (verifyChallenge shared body session)
  let now ← perform .unixSecs
  let (response, refreshTokenHash) ← lift (createTokens shared session.did newSessionId now)
  updateSessionAuthenticated shared.digest session.sessionId newSessionId session.did refreshTokenHash
  return ⟨newSessionId, response⟩

/-! ## The refresh -/

/-- The envelope of a refresh and the message in it. -/
def openRefresh (body : String) : Except MediatorError (MetaEnvelope × Message) := do
  let envelope ← (shared.newEnvelope body).mapError fun e =>
    authProblemFor 37 "message.envelope.read" "Couldn't read DIDComm envelope:" e 400
  let msg ← unpackAuthMessage shared envelope
  requireType msg "https://affinidi.com/atm/1.0/authenticate/refresh"
  return (envelope, msg)

/-- `refresh_token` of the message's body. -/
def refreshTokenOf (msg : Message) : Except MediatorError String :=
  match msg.body.get? "refresh_token" with
  | some (.str refreshToken) => .ok refreshToken
  | some _ => .error (authProblem 38 "authentication.session.refresh_token.parse"
      "Failed to parse JWT refresh token: not a string" 400)
  | none => .error (authProblem 38 "authentication.session.refresh_token.parse"
      "Failed to parse JWT refresh token: missing" 400)

/-- The token of a refresh with its claims, and the sender of the envelope. -/
def presentedToken (envelope : MetaEnvelope) (msg : Message) (now : ℕ) :
    Except MediatorError (String × SessionClaims × String) := do
  requireFresh msg now
  let refreshToken ← refreshTokenOf msg
  let claims ← (shared.jwtDecode refreshToken).mapError fun e =>
    authProblemFor 38 "authentication.session.refresh_token.parse" "Failed to decode JWT refresh token. Reason:"
      e 400
  if jwtExpIsExpired claims.exp now then
    .error (authProblem 38 "authentication.session.refresh_token.expired" "Refresh token has expired" 400)
  else
    match envelope.fromDid with
    | some fromDid => return (refreshToken, claims, fromDid)
    | none => .error (authProblem 39 "authentication.message.from.missing"
        "DIDComm message is missing the from: header. Required for this transaction" 400)

/-- The session is authenticated, and the ACL it was joined with does not block. -/
def checkRefreshSession (session : Session) : Except MediatorError Unit :=
  if session.state ≠ .authenticated then
    .error (authProblemFor 34 "authentication.session.invalid"
      "Session is in an invalid state to complete authentication. Should be Authenticated, instead is"
      session.state.display 400)
  else if !grants session.acls .notBlocked then .error (didIsBlocked "")
  else .ok ()

/-- A hash that is there is the presented token's. -/
def checkReuse (refreshToken : String) (storedHash : Option String) : Except MediatorError Unit :=
  if storedHash.any fun stored => stored ≠ shared.digest refreshToken then
    .error (authProblem 38 "authentication.session.refresh_token.reuse"
      "Refresh token has already been used (possible token replay)" 401)
  else .ok ()

/-- The rotation: the hash of the new token replaces the stored one. -/
def rotateRefreshToken (session : Session) (response : AuthorizationResponse) (newRefreshHash : String) :
    AuthRoutine (SuccessResponse AuthorizationResponse) := do
  (updateRefreshTokenHash session.sessionId newRefreshHash).mapError authStorageError
  return ⟨session.sessionId, response⟩

/-- The check against reuse; a token that passes is answered with new ones. -/
def compareRefreshToken (refreshToken : String) (session : Session) (now : ℕ) :
    AuthRoutine (SuccessResponse AuthorizationResponse) := do
  let storedHash ← (getRefreshTokenHash session.sessionId).mapError authStorageError
  lift (checkReuse shared refreshToken storedHash)
  let (response, newRefreshHash) ← lift (createTokens shared session.did session.sessionId now)
  rotateRefreshToken session response newRefreshHash

/-- The session of a token, joined with the account of the sender. -/
def refreshSession (refreshToken : String) (claims : SessionClaims) (fromDid : String) (now : ℕ) :
    AuthRoutine (SuccessResponse AuthorizationResponse) := do
  let session ← performOr authStorageError (.getSession claims.sessionId fromDid)
  lift (checkRefreshSession session)
  compareRefreshToken shared refreshToken session now

/-- `POST /authenticate/refresh`. -/
def authenticationRefresh (body : String) : AuthRoutine (SuccessResponse AuthorizationResponse) := do
  let (envelope, msg) ← lift (openRefresh shared body)
  let now ← perform .unixSecs
  let (refreshToken, claims, fromDid) ← lift (presentedToken shared envelope msg now)
  refreshSession shared refreshToken claims fromDid now

end Routines

end AffinidiTdk.Auth
