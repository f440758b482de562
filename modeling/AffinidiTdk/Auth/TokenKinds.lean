/-
Access and refresh tokens. Both carry the same claims, and an API request checks nothing else: what
keeps a refresh token from authorising one is only that nobody presents it. A refresh does check:
against the stored hash, which is always that of a refresh token, where there is one.
-/
import AffinidiTdk.Auth.Requests

namespace AffinidiTdk.Auth

open Fallible List Option Request Function ApiStage
open Acl Store Didcomm Program

section

variable {Key : Type} (shared : SharedData Key)

/-! ## Which function made a token -/

/-- A function of this kind made the token. -/
def MintedAs (minted : List Minted) (kind : TokenKind) (token : String) : Prop :=
  ∃ m ∈ minted, m.kind = kind ∧ m.token = token

instance (minted : List Minted) (kind : TokenKind) (token : String) : Decidable (MintedAs minted kind token) :=
  inferInstanceAs (Decidable (∃ m ∈ minted, m.kind = kind ∧ m.token = token))

/-- A token that is known to clients. -/
def Known (minted : List Minted) (token : String) : Prop :=
  MintedAs minted .access token ∨ MintedAs minted .refresh token

instance (minted : List Minted) (token : String) : Decidable (Known minted token) :=
  inferInstanceAs (Decidable (_ ∨ _))

/-- The token that a request presents at its first step. -/
def Request.presents (st : AuthState) : Request → Option String
  | .api (.opening token) => (shared.jwtDecode token).toOption.map fun _ => token
  | .refresh (.opening body) => (openToken shared body st.unixSecs).toOption.map Prod.fst
  | _ => none

/-- Nobody forges a signature: a token that decodes was made. -/
def Unforged (traffic : Traffic) : TrafficEvent → Prop
  | .turn i => ∀ request ∈ traffic.requests[i]?, ∀ token ∈ request.presents shared traffic.state,
      Known traffic.minted token
  | _ => True

/-- The session of the claims is gone or has lapsed, is that of another DID, or is blocked by its ACL. -/
def Shut (st : AuthState) (claims : SessionClaims) : Prop :=
  ∀ record ∈ st.sessions.get claims.sessionId, st.instant < record.expiresAt →
    record.session.did ≠ claims.sub ∨ (st.shown shared.digest record claims.sub).acls.getBlocked = true

/-- The session of a token that only `_create_refresh_token` made is shut when an API request looks it up; and at
the check of a token that only `_create_access_token` made there is a hash to check against. -/
def Request.KeptApart (traffic : Traffic) : Request → Prop
  | .api (.looking token claims _) =>
      MintedAs traffic.minted .refresh token → ¬MintedAs traffic.minted .access token →
        Shut shared traffic.state claims
  | .refresh (.comparing token session _) =>
      MintedAs traffic.minted .access token → ¬MintedAs traffic.minted .refresh token →
        traffic.state.storedHash shared session.sessionId ≠ none
  | _ => True

/-- What the clock reads leaves room for a lifetime and the leeway in 64 bits. -/
def InRange (st : AuthState) : Prop :=
  st.unixSecs + max shared.security.jwtAccessExpiry (refreshExpiry shared) + jwtExpLeewaySecs < 2 ^ 64

def KeptApart (traffic : Traffic) : TrafficEvent → Prop
  | .turn i => InRange shared traffic.state ∧
      ∀ request ∈ traffic.requests[i]?, request.KeptApart shared traffic
  | _ => True

/-! ## What a run keeps -/

/-- The hash of a refresh token. -/
def RefreshHash (minted : List Minted) (hash : String) : Prop :=
  ∃ token, MintedAs minted .refresh token ∧ shared.digest token = hash

/-- A call that stores no other hash. -/
def Writes (minted : List Minted) : ∀ β : Type, AuthCall β → Prop
  | _, .putSession session _ => ∀ hash, session.refreshTokenHash = some hash → RefreshHash shared minted hash
  | _, _ => True

/-- Made by `_create_access_token`, and not longer ago than it lives. -/
def LiveAccess (minted : List Minted) (token : String) (now : ℕ) : Prop :=
  ∃ m ∈ minted, m.kind = .access ∧ m.token = token ∧
    now ≤ m.madeAt + shared.security.jwtAccessExpiry + jwtExpLeewaySecs

def ApiStage.Sound (minted : List Minted) : ApiStage → Prop
  | .looking token claims now => shared.jwtDecode token = .ok claims ∧
      jwtExpIsExpired claims.exp now = false ∧ Known minted token
  | .authorised token now _ => LiveAccess shared minted token now
  | _ => True

def Stage.Sound (minted : List Minted) : Stage → Prop
  | .looking token _ _ _ => Known minted token
  | .comparing token _ _ => Known minted token
  | .reading token _ _ newHash => MintedAs minted .refresh token ∧ RefreshHash shared minted newHash
  | .writing token _ _ newHash _ => MintedAs minted .refresh token ∧ RefreshHash shared minted newHash
  | .accepted token _ => MintedAs minted .refresh token
  | _ => True

def Request.Sound (minted : List Minted) : Request → Prop
  | .challenge rest => rest.Only (Writes shared minted)
  | .login _ rest => rest.Only (Writes shared minted)
  | .storing rest => rest.Only (Writes shared minted)
  | .refresh stage => stage.Sound shared minted
  | .api stage => stage.Sound shared minted

/-- Every stored hash is that of a refresh token. -/
def HashesMinted (minted : List Minted) (st : AuthState) : Prop :=
  ∀ id hash, st.currentHash id = some hash → RefreshHash shared minted hash

/-- An access token expires when its lifetime is over. -/
def AccessLifetimes (minted : List Minted) : Prop :=
  ∀ m ∈ minted, m.kind = .access → ∀ claims, shared.jwtDecode m.token = .ok claims →
    claims.exp = m.madeAt + shared.security.jwtAccessExpiry

/-- The refresh hashes, the lifetimes and the requests in flight go back to what was minted. -/
structure Traffic.Sound (traffic : Traffic) : Prop where
  hashes : HashesMinted shared traffic.minted traffic.state
  lifetimes : AccessLifetimes shared traffic.minted
  requests : ∀ request ∈ traffic.requests, request.Sound shared traffic.minted

variable {shared} {minted minted' : List Minted} {st st' : AuthState} {token : String}

/-! ### More tokens change nothing -/

theorem MintedAs.mono {kind : TokenKind} (h : MintedAs minted kind token) (hsub : minted ⊆ minted') :
    MintedAs minted' kind token := by
  obtain ⟨m, hm, hmade⟩ := h
  exact ⟨m, hsub hm, hmade⟩

theorem Known.mono (h : Known minted token) (hsub : minted ⊆ minted') : Known minted' token :=
  h.imp (MintedAs.mono · hsub) (MintedAs.mono · hsub)

variable {hash : String}

theorem RefreshHash.mono (h : RefreshHash shared minted hash) (hsub : minted ⊆ minted') :
    RefreshHash shared minted' hash := by
  obtain ⟨token, hmade, rfl⟩ := h
  exact ⟨token, hmade.mono hsub, rfl⟩

theorem Writes.mono (hsub : minted ⊆ minted') (β : Type) (c : AuthCall β) (h : Writes shared minted β c) :
    Writes shared minted' β c := by
  cases c with
  | putSession session ttl => exact fun hash hhash => (h hash hhash).mono hsub
  | _ => trivial

variable {now : ℕ}

theorem LiveAccess.mono (h : LiveAccess shared minted token now) (hsub : minted ⊆ minted') :
    LiveAccess shared minted' token now := by
  obtain ⟨m, hm, hlive⟩ := h
  exact ⟨m, hsub hm, hlive⟩

variable {request : Request}

theorem Request.Sound.mono (h : request.Sound shared minted) (hsub : minted ⊆ minted') :
    request.Sound shared minted' := by
  cases request with
  | challenge rest | login protocol rest | storing rest => exact Only.mono h (Writes.mono hsub)
  | refresh stage =>
    cases stage with
    | looking token claims fromDid now | comparing token session now => exact Known.mono h hsub
    | reading token session response newHash
    | writing token session response newHash found => exact ⟨h.1.mono hsub, h.2.mono hsub⟩
    | accepted token response => exact MintedAs.mono h hsub
    | opening body => trivial
    | refused e => trivial
  | api stage =>
    cases stage with
    | looking token claims now => exact ⟨h.1, h.2.1, h.2.2.mono hsub⟩
    | authorised token now session => exact LiveAccess.mono h hsub
    | opening token => trivial
    | rejected e => trivial

/-! ### The tokens that are made -/

theorem minted_refresh (response : AuthorizationResponse) (now : ℕ) :
    MintedAs (response.minted now) .refresh response.refreshToken :=
  ⟨_, mem_cons_of_mem _ mem_cons_self, rfl, rfl⟩

variable {did sessionId newHash : String} {response : AuthorizationResponse}

theorem createTokens_access (h : createTokens shared did sessionId now = .ok (response, newHash)) :
    shared.jwtEncode ⟨"ATM", did, sessionId, now + shared.security.jwtAccessExpiry⟩ =
    .ok response.accessToken := by
  unfold createTokens at h
  obtain ⟨⟨accessToken, accessExpiresAt⟩, hcreate, h⟩ := bind_eq_ok_iff.1 h
  obtain ⟨⟨refreshToken, refreshExpiresAt, hash⟩, -, h⟩ := bind_eq_ok_iff.1 h
  cases pure_eq_ok_iff.1 h
  unfold createAccessToken at hcreate
  split at hcreate
  · rename_i token hencode
    obtain ⟨rfl, -⟩ : token = accessToken ∧ _ := by simpa using hcreate
    exact hencode
  · cases hcreate

section Made

variable (hjwt : ∀ claims token, shared.jwtEncode claims = .ok token → shared.jwtDecode token = .ok claims)
include hjwt

theorem AccessLifetimes.made {did sessionId newHash : String} {now : ℕ} {response : AuthorizationResponse}
    (h : AccessLifetimes shared minted) (hmade : createTokens shared did sessionId now = .ok (response, newHash)) :
    AccessLifetimes shared (minted ++ response.minted now) := by
  intro m hm hkind claims hclaims
  rcases mem_append.1 hm with hold | hnew
  · exact h m hold hkind claims hclaims
  · rcases mem_cons.1 hnew with rfl | hnew
    · cases (hjwt _ _ (createTokens_access hmade)).symm.trans hclaims
      rfl
    · obtain rfl := mem_singleton.1 hnew
      cases hkind

end Made

theorem refreshHash_made (hmade : createTokens shared did sessionId now = .ok (response, newHash)) :
    RefreshHash shared (minted ++ response.minted now) newHash :=
  ⟨response.refreshToken, (minted_refresh response now).mono (subset_append_right _ _),
    (createTokens_hash hmade).1.symm⟩

/-! ### What the handlers write -/

theorem only_authenticationCheck (didHash : String) :
    (authenticationCheck shared didHash).Only (Writes shared minted) := by
  refine .bind (.perform trivial) fun answer => ?_
  split
  · trivial
  · trivial

theorem only_allowedSender (envelope : MetaEnvelope) :
    (allowedSender shared envelope).Only (Writes shared minted) := by
  unfold allowedSender
  split
  · refine .bind ((only_authenticationCheck _).mapError _) fun answer => ?_
    obtain ⟨allowed, known⟩ := answer
    dsimp only
    split
    · trivial
    · trivial
  · trivial

variable {session : Session}

theorem only_createSession (h : session.refreshTokenHash = none) :
    (createSession session).Only (Writes shared minted) := by
  refine .bind (.perform fun hash hhash => ?_) fun _ => .perform trivial
  rw [h] at hhash
  cases hhash

theorem only_authenticationChallenge (sessionId challenge did : String) :
    (authenticationChallenge shared sessionId challenge did).Only (Writes shared minted) := by
  unfold authenticationChallenge
  split
  · trivial
  · refine .bind (only_authenticationCheck _) fun answer => ?_
    obtain ⟨allowed, known⟩ := answer
    dsimp only
    split
    · trivial
    · split
      · exact .bind (.perform trivial) fun _ => .bind (only_createSession rfl) fun _ => trivial
      · exact .bind (only_createSession rfl) fun _ => trivial

theorem only_didcommLogin (newSessionId body : String) :
    (didcommLogin shared newSessionId body).Only (Writes shared minted) := by
  unfold didcommLogin
  refine .bind trivial fun envelope => .bind trivial fun _ => .bind (only_allowedSender envelope) fun fromDid => ?_
  refine .bind trivial fun msg => .bind trivial fun _ => .bind trivial fun _ => .bind (.perform trivial) fun now
    => ?_
  refine .bind trivial fun _ => .bind trivial fun challenge => .bind (.performOr _ trivial) fun session => ?_
  exact .bind trivial fun _ => trivial

theorem only_tspLogin (newSessionId : String) (body : TspAuthenticateBody) :
    (tspLogin shared newSessionId body).Only (Writes shared minted) := by
  unfold tspLogin
  split
  · trivial
  · refine .bind (.perform trivial) fun session => .bind trivial fun _ => .bind trivial fun _ => ?_
    exact .bind (.perform trivial) fun _ => trivial

theorem only_updateSessionAuthenticated {oldSessionId newSessionId : String} (h : RefreshHash shared minted hash) :
    (updateSessionAuthenticated shared.digest oldSessionId newSessionId did hash).Only (Writes shared minted) := by
  have hput : ∀ session : Session, (do
      perform (.putSession (session.promote shared.digest newSessionId did hash) 86400)
      perform (.statsIncrement "SESSIONS_SUCCESS" 1) : AuthRoutine Unit).Only (Writes shared minted) := by
    refine fun session => .bind (.perform fun stored hstored => ?_) fun _ => .perform trivial
    obtain rfl : hash = stored := some.inj hstored
    exact h
  unfold updateSessionAuthenticated
  refine .bind (.attempt trivial) fun found => ?_
  dsimp only
  split
  · exact .bind (.perform trivial) fun _ => hput _
  · exact hput _

theorem only_store {protocol : LoginProtocol} {login : Login} (h : RefreshHash shared minted hash) :
    (protocol.store shared login response hash).Only (Writes shared minted) := by
  cases protocol with
  | didcomm =>
    refine .bind ((only_updateSessionAuthenticated h).mapError _) fun _ => .bind ?_ fun _ => trivial
    refine .bind (.perform trivial) fun known => ?_
    split
    · trivial
    · split
      · exact .bind (.perform trivial) fun _ => trivial
      · trivial
  | tsp => exact .bind (only_updateSessionAuthenticated h) fun _ => trivial

theorem ClientRequest.sound_arrive (request : ClientRequest) : (request.arrive shared).Sound shared minted := by
  cases request with
  | challenge sessionId challenge did => exact only_authenticationChallenge sessionId challenge did
  | response newSessionId body => exact only_didcommLogin newSessionId body
  | tspResponse newSessionId body => exact only_tspLogin newSessionId body
  | refresh body => trivial
  | api token => trivial

/-! ### What a call leaves -/

theorem HashesMinted.call (β : Type) (c : AuthCall β) (st : AuthState) (hc : Writes shared minted β c)
    (h : HashesMinted shared minted st) : HashesMinted shared minted (memoryStore shared.digest c st).2 := by
  cases c with
  | getSession sessionId did => exact fun id hash hhash => h id hash (currentHash_of_getSession hhash)
  | putSession session ttl =>
    intro id hash hhash
    replace hhash : (st.putSession session ttl).currentHash id = some hash := hhash
    rw [currentHash_putSession] at hhash
    by_cases hid : id = session.sessionId
    · rw [hid, update_self] at hhash
      exact hc hash hhash
    · rw [update_of_ne hid] at hhash
      exact h id hash hhash
  | deleteSession sessionId =>
    intro id hash hhash
    unfold AuthState.currentHash at hhash
    obtain ⟨record, hget, hrecord⟩ := bind_eq_some_iff.1 hhash
    refine h id hash ?_
    unfold AuthState.currentHash
    rw [SessionTable.get_of_remove hget]
    exact hrecord
  | unixSecs => exact h
  | statsIncrement key amount => exact h
  | getDidAcls dids mode => exact h
  | accountExists didHash => exact h
  | accountAdd didHash acls => exact h

theorem HashesMinted.program {α : Type} {rest : AuthRoutine α} (hrest : rest.Only (Writes shared minted))
    (h : HashesMinted shared minted st) :
    HashesMinted shared minted (Program.step (memoryStore shared.digest) rest st).2 :=
  hrest.keeps (fun β c st hc => HashesMinted.call β c st hc) h

theorem HashesMinted.mono (h : HashesMinted shared minted st) (hsub : minted ⊆ minted') :
    HashesMinted shared minted' st :=
  fun id hash hhash => (h id hash hhash).mono hsub

/-! ## One step of a request -/

variable (shared) in
/-- What one step of a request leaves, with the tokens it makes. -/
structure StepSound (minted : List Minted) (after : (Request × List Minted) × AuthState) : Prop where
  hashes : HashesMinted shared (minted ++ after.1.2) after.2
  lifetimes : AccessLifetimes shared (minted ++ after.1.2)
  request : after.1.1.Sound shared (minted ++ after.1.2)

theorem StepSound.quiet (hhashes : HashesMinted shared minted st) (hlifetimes : AccessLifetimes shared minted)
    (hrequest : request.Sound shared minted) : StepSound shared minted ((request, []), st) := by
  refine ⟨?_, ?_, ?_⟩
  · rw [append_nil]
    exact hhashes
  · rw [append_nil]
    exact hlifetimes
  · rw [append_nil]
    exact hrequest

theorem openToken_presents {body : String} {opened : String × SessionClaims × String}
    (h : openToken shared body st.unixSecs = .ok opened) :
    presents shared st (.refresh (.opening body)) = some opened.1 := by
  simp only [presents, h]
  rfl

section Step

variable (hjwt : ∀ claims token, shared.jwtEncode claims = .ok token → shared.jwtDecode token = .ok claims)
include hjwt

theorem StepSound.made (protocol : LoginProtocol) (login : Login) (hhashes : HashesMinted shared minted st)
    (hlifetimes : AccessLifetimes shared minted) :
    StepSound shared minted (Request.made shared protocol login, st) := by
  unfold Request.made
  cases hmade : login.createTokens shared with
  | error e => exact .quiet hhashes hlifetimes trivial
  | ok made =>
    exact ⟨hhashes.mono (subset_append_left _ _), hlifetimes.made hjwt hmade, only_store (refreshHash_made hmade)⟩

theorem StepSound.ofLogin {protocol : LoginProtocol} {rest : AuthRoutine Login}
    (hrest : rest.Only (Writes shared minted)) (hhashes : HashesMinted shared minted st)
    (hlifetimes : AccessLifetimes shared minted) :
    StepSound shared minted (ofLogin shared protocol rest, st) := by
  cases rest with
  | ret result =>
    cases result with
    | ok login => exact .made hjwt protocol login hhashes hlifetimes
    | error e => exact .quiet hhashes hlifetimes trivial
  | call c next => exact .quiet hhashes hlifetimes hrest

end Step

theorem toOption_authorise {claims : SessionClaims} (h : Shut shared st claims) :
    (authorise claims (st.getSession shared.digest claims.sessionId claims.sub).1).toOption = none := by
  rcases getSession_cases shared.digest st claims.sessionId claims.sub with
    ⟨record, hget, hlive, heq⟩ | ⟨e, st', heq, -⟩
  · have hdid : (st.shown shared.digest record claims.sub).did = record.session.did := by
      unfold AuthState.shown
      split
      · rfl
      · exact Session.join_did _ _
    rw [heq]
    unfold authorise
    dsimp only
    rw [hdid]
    rcases h record hget hlive with hother | hblocked
    · rw [if_pos hother]
      rfl
    · split
      · rfl
      · rw [grants, hblocked]
        rfl
  · rw [heq]
    rfl

theorem ApiStage.opened_sound (hknown : ∀ claims, shared.jwtDecode token = .ok claims → Known minted token) :
    (opened shared token now).Sound shared minted := by
  unfold opened
  cases hdecode : shared.jwtDecode token with
  | error e => trivial
  | ok claims =>
    dsimp only
    split
    · trivial
    · rename_i hfresh
      exact ⟨hdecode, by simpa using hfresh, hknown claims hdecode⟩

/-- An API request that is accepted: its token is an access token, since no other kind gets this far,
and what the clock was compared with is the end of its lifetime. -/
theorem ApiStage.closed_sound {claims : SessionClaims} {answer : Except AuthError Session}
    (hlifetimes : AccessLifetimes shared minted) (h : (looking token claims now).Sound shared minted)
    (hapart : MintedAs minted .refresh token → ¬MintedAs minted .access token → answer.toOption = none) :
    (closed token now answer).Sound shared minted := by
  obtain ⟨hdecode, hfresh, hknown⟩ := h
  cases answer with
  | error e => trivial
  | ok session =>
    have haccess : MintedAs minted .access token := by
      by_contra hnot
      cases hapart (hknown.resolve_left hnot) hnot
    obtain ⟨m, hm, hkind, rfl⟩ := haccess
    refine ⟨m, hm, hkind, rfl, ?_⟩
    have hexp := hlifetimes m hm hkind claims hdecode
    simp only [jwtExpIsExpired, decide_eq_false_iff_not, not_lt] at hfresh
    omega

variable {stage : Stage}

theorem minted_of_compared (hdigest : Injective shared.digest) (hhashes : HashesMinted shared minted st)
    (hknown : Known minted token) (hapart : MintedAs minted .access token → ¬MintedAs minted .refresh token →
    st.storedHash shared session.sessionId ≠ none)
    (h : compared shared token session now (st.storedHash shared session.sessionId) = .ok stage) :
    MintedAs minted .refresh token := by
  by_contra hnot
  have hsome := hapart (hknown.resolve_right hnot) hnot
  have hstored := (compared_eq_ok h).1.resolve_left hsome
  obtain ⟨token', hmade, heq⟩ := hhashes _ _ (storedHash_eq_some hstored)
  exact hnot (hdigest heq ▸ hmade)

theorem looked_eq_ok {answer : Except MediatorError Session} (h : looked token now answer = .ok stage) : ∃ session,
    stage = .comparing token session now := by
  unfold looked at h
  obtain ⟨session, -, h⟩ := bind_eq_ok_iff.1 h
  obtain ⟨-, -, h⟩ := bind_eq_ok_iff.1 h
  exact ⟨session, (pure_eq_ok_iff.1 h).symm⟩

/-! ## Runs -/

variable {traffic : Traffic}

/-- A store call of one request keeps the traffic sound. -/
theorem Traffic.Sound.turn (hdigest : Injective shared.digest)
    (hjwt : ∀ claims token, shared.jwtEncode claims = .ok token → shared.jwtDecode token = .ok claims)
    (h : traffic.Sound shared) (hmem : request ∈ traffic.requests)
    (hunforged : ∀ token ∈ request.presents shared traffic.state, Known traffic.minted token)
    (hapart : request.KeptApart shared traffic) : StepSound shared traffic.minted
    (request.step shared traffic.state) := by
  have hsound := h.requests request hmem
  cases request with
  | challenge rest => exact .quiet (h.hashes.program hsound) h.lifetimes (Only.step hsound)
  | login protocol rest => exact .ofLogin hjwt (Only.step hsound) (h.hashes.program hsound) h.lifetimes
  | storing rest => exact .quiet (h.hashes.program hsound) h.lifetimes (Only.step hsound)
  | api stage =>
    cases stage with
    | opening token =>
      refine .quiet h.hashes h.lifetimes (opened_sound fun claims hdecode => hunforged token ?_)
      simp [Request.presents, hdecode, Except.toOption]
    | looking token claims now =>
      refine .quiet (fun id hash hhash => h.hashes id hash (currentHash_of_getSession hhash)) h.lifetimes ?_
      exact closed_sound h.lifetimes hsound fun hrefresh hnot => toOption_authorise (hapart hrefresh hnot)
    | authorised token now session => exact .quiet h.hashes h.lifetimes hsound
    | rejected e => exact .quiet h.hashes h.lifetimes trivial
  | refresh stage =>
    -- looking a session up keeps the hashes that are stored
    have hlookup : ∀ sessionId did, HashesMinted shared traffic.minted
        (traffic.state.getSession shared.digest sessionId did).2 :=
      fun sessionId did id hash hhash => h.hashes id hash (currentHash_of_getSession hhash)
    cases stage with
    | opening body =>
      simp only [Request.step, Stage.step]
      cases hopen : openToken shared body traffic.state.unixSecs with
      | error e => exact .quiet h.hashes h.lifetimes trivial
      | ok opened => exact .quiet h.hashes h.lifetimes (hunforged opened.1 (openToken_presents hopen))
    | looking token claims fromDid now =>
      simp only [Request.step, Stage.step]
      cases hlooked : looked token now (traffic.state.getSession shared.digest claims.sessionId fromDid).1 with
      | error e => exact .quiet (hlookup _ _) h.lifetimes trivial
      | ok stage =>
        obtain ⟨session, rfl⟩ := looked_eq_ok hlooked
        exact .quiet (hlookup _ _) h.lifetimes hsound
    | comparing token session now =>
      simp only [Request.step, Stage.step]
      cases hcompared : compared shared token session now (traffic.state.storedHash shared session.sessionId) with
      | error e => exact .quiet (hlookup _ _) h.lifetimes trivial
      | ok stage =>
        have hrefresh := minted_of_compared hdigest h.hashes hsound hapart hcompared
        obtain ⟨-, response, newHash, hmade, rfl⟩ := compared_eq_ok hcompared
        -- here a refresh makes its tokens
        have hold : traffic.minted ⊆ traffic.minted ++ response.minted now := subset_append_left _ _
        exact ⟨(hlookup _ _).mono hold, h.lifetimes.made hjwt hmade, hrefresh.mono hold, refreshHash_made hmade⟩
    | reading token session response newHash => exact .quiet (hlookup _ _) h.lifetimes hsound
    | writing token session response newHash found =>
      have hwrites : Writes shared traffic.minted Unit
          (.putSession { found with refreshTokenHash := some newHash } 86400) := by
        intro hash hhash
        obtain rfl : newHash = hash := some.inj hhash
        exact hsound.2
      exact .quiet (HashesMinted.call Unit _ traffic.state hwrites h.hashes) h.lifetimes hsound.1
    | accepted token response => exact .quiet h.hashes h.lifetimes hsound
    | refused e => exact .quiet h.hashes h.lifetimes trivial

/-- So does every step. -/
theorem Traffic.Sound.step (hdigest : Injective shared.digest)
    (hjwt : ∀ claims token, shared.jwtEncode claims = .ok token → shared.jwtDecode token = .ok claims)
    {e : TrafficEvent} (h : traffic.Sound shared) (hunforged : Unforged shared traffic e)
    (hapart : Auth.KeptApart shared traffic e) : (traffic.step shared e).Sound shared := by
  cases e with
  | arrive request =>
    refine ⟨h.hashes, h.lifetimes, fun request' hmem => ?_⟩
    rcases mem_append.1 hmem with hold | hnew
    · exact h.requests request' hold
    · obtain rfl := mem_singleton.1 hnew
      exact request.sound_arrive
  | turn i =>
    cases hrequest : traffic.requests[i]? with
    | none =>
      simp only [Traffic.step, hrequest]
      exact h
    | some request =>
      obtain ⟨hhashes, hlifetimes, hsound⟩ := Traffic.Sound.turn hdigest hjwt h (mem_of_getElem? hrequest)
        (hunforged request hrequest) (hapart.2 request hrequest)
      simp only [Traffic.step, hrequest]
      refine ⟨hhashes, hlifetimes, fun request' hmem => ?_⟩
      rcases mem_or_eq_of_mem_set hmem with hold | rfl
      · exact (h.requests request' hold).mono (subset_append_left _ _)
      · exact hsound
  | clock unixSecs elapsed | accounts store => exact ⟨h.hashes, h.lifetimes, h.requests⟩

/-- And every run from a store without sessions. -/
theorem Traffic.Sound.run (hdigest : Injective shared.digest)
    (hjwt : ∀ claims token, shared.jwtEncode claims = .ok token → shared.jwtDecode token = .ok claims)
    {st₀ : AuthState} (hnone : ∀ id, st₀.sessions.get id = none)
    (hrun : Traffic.Run shared (fun traffic e => Unforged shared traffic e ∧ Auth.KeptApart shared traffic e)
    ⟨st₀, [], []⟩ traffic) : traffic.Sound shared := by
  induction hrun with
  | start =>
    refine ⟨fun id hash hhash => ?_, fun m hm => absurd hm not_mem_nil, fun r hr => absurd hr not_mem_nil⟩
    simp [AuthState.currentHash, hnone] at hhash
  | step e _ hok ih => exact ih.step hdigest hjwt hok.1 hok.2

theorem Traffic.Sound.authorised (h : traffic.Sound shared)
    (hmem : .api (.authorised token now session) ∈ traffic.requests) :
    LiveAccess shared traffic.minted token now :=
  h.requests (.api (.authorised token now session)) hmem

theorem Traffic.Sound.passed (h : traffic.Sound shared) (hmem : .refresh stage ∈ traffic.requests)
    (hpassed : stage.passed = some token) : MintedAs traffic.minted .refresh token := by
  have hsound : stage.Sound shared traffic.minted := h.requests (.refresh stage) hmem
  cases stage with
  | reading token' session response newHash | writing token' session response newHash found =>
    cases hpassed
    exact hsound.1
  | accepted token' response =>
    cases hpassed
    exact hsound
  | opening body => cases hpassed
  | looking token claims fromDid now => cases hpassed
  | comparing token session now => cases hpassed
  | refused e => cases hpassed

/-- In every run from a store without sessions, in which nobody forges a token, the session of every token that
only `_create_refresh_token` made is shut where an API request looks it up, and there is a stored hash at the check
of every token that only `_create_access_token` made: a request is authorised only by an access token within its
lifetime and the leeway, and refreshed only by a refresh token. -/
theorem tokens_kept_apart (hdigest : Injective shared.digest)
    (hjwt : ∀ claims token, shared.jwtEncode claims = .ok token → shared.jwtDecode token = .ok claims)
    {st₀ : AuthState} (hnone : ∀ id, st₀.sessions.get id = none) {traffic : Traffic}
    (hrun : Traffic.Run shared (fun traffic e => Unforged shared traffic e ∧ KeptApart shared traffic e)
      ⟨st₀, [], []⟩ traffic) :
    (∀ token now session, .api (.authorised token now session) ∈ traffic.requests →
      ∃ m ∈ traffic.minted, m.kind = .access ∧ m.token = token ∧
        now ≤ m.madeAt + shared.security.jwtAccessExpiry + jwtExpLeewaySecs) ∧
    ∀ stage token, .refresh stage ∈ traffic.requests → stage.passed = some token →
      ∃ m ∈ traffic.minted, m.kind = .refresh ∧ m.token = token := by
  have h := Traffic.Sound.run hdigest hjwt hnone hrun
  exact ⟨fun _ _ _ hmem => h.authorised hmem, fun _ _ hmem hpassed => h.passed hmem hpassed⟩

/-! ## Runs that compute -/

variable (shared)

def Traffic.steps (traffic : Traffic) (events : List TrafficEvent) : Traffic :=
  events.foldl (Traffic.step shared) traffic

/-- Every step of these events is `ok`. -/
def Traffic.obeys (ok : Traffic → TrafficEvent → Bool) (traffic : Traffic) : List TrafficEvent → Bool
  | [] => true
  | e :: events => ok traffic e && Traffic.obeys ok (traffic.step shared e) events

instance (traffic : Traffic) (e : TrafficEvent) : Decidable (Unforged shared traffic e) := by
  cases e <;> unfold Unforged <;> infer_instance

instance (st : AuthState) (claims : SessionClaims) : Decidable (Shut shared st claims) :=
  inferInstanceAs (Decidable (∀ _ ∈ _, _))

instance (traffic : Traffic) (request : Request) : Decidable (request.KeptApart shared traffic) := by
  unfold Request.KeptApart
  split <;> infer_instance

instance (traffic : Traffic) (e : TrafficEvent) : Decidable (KeptApart shared traffic e) := by
  cases e <;> unfold KeptApart InRange <;> infer_instance

variable {shared}

theorem Traffic.run_steps {ok : Traffic → TrafficEvent → Bool} {P : Traffic → TrafficEvent → Prop}
    (hok : ∀ traffic e, ok traffic e = true → P traffic e) {traffic₀ : Traffic} {events : List TrafficEvent}
    (hrun : Traffic.Run shared P traffic₀ traffic) (h : traffic.obeys shared ok events = true) :
    Traffic.Run shared P traffic₀ (traffic.steps shared events) := by
  induction events generalizing traffic with
  | nil => exact hrun
  | cons e events ih =>
    rw [Traffic.obeys, Bool.and_eq_true] at h
    exact ih (.step e hrun (hok traffic e h.1)) h.2

/-- The token of an authorised request, and the reading of the clock. -/
def Request.admitted : Request → Option (String × ℕ)
  | .api (.authorised token now _) => some (token, now)
  | _ => none

/-- The token of a refresh that has passed the check. -/
def Request.refreshed : Request → Option String
  | .refresh stage => stage.passed
  | _ => none

theorem Request.admitted_eq_some {token : String} (h : request.admitted = some (token, now)) : ∃ session, request =
    .api (.authorised token now session) := by
  unfold admitted at h
  split at h
  · cases h
    exact ⟨_, rfl⟩
  · cases h

theorem Request.refreshed_eq_some {token : String} (h : request.refreshed = some token) : ∃ stage, request =
    .refresh stage ∧ stage.passed = some token := by
  unfold refreshed at h
  split at h
  · exact ⟨_, rfl, h⟩
  · cases h

end

/-! ## Bob's two tokens -/

/-- A body of `x`s is a refresh with that token; any other is a response that carries it. -/
def tokensShared : SharedData Unit :=
  { bobShared with
    unpack := fun envelope => .ok ((if Text.startsWith "x" envelope.raw then
        { id := "1", typ := "https://affinidi.com/atm/1.0/authenticate/refresh", sender := some "did:ex:bob",
          body := .obj [("refresh_token", .str envelope.raw)], expiresTime := some 1000 }
      else
        { id := "1", typ := "https://affinidi.com/atm/1.0/authenticate", sender := some "did:ex:bob",
          body := .obj [("challenge", .str envelope.raw), ("session_id", .str "s")], expiresTime := some 1000 }),
      { encrypted := true, authenticated := true })
    jwtEncode := bobEncode "n"
    jwtDecode := bobDecode "n" }

def quiet : Traffic := ⟨⟨default, .empty, 0, 5⟩, [], []⟩

/-- Bob logs in at second 5: his access token expires at 6 and his refresh token at 7. -/
def bobLogsIn : List TrafficEvent :=
  [.arrive (.challenge "s" "c" "did:ex:bob")] ++ List.replicate 4 (.turn 0) ++
    [.arrive (.response "n" "c")] ++ List.replicate 9 (.turn 1)

/-- Bob uses each token in its place. -/
def bobUsesBoth : List TrafficEvent :=
  bobLogsIn ++ [.arrive (.api "xxxxxx"), .turn 2, .turn 2] ++ [.arrive (.refresh "xxxxxxx")] ++
    List.replicate 5 (.turn 3)

theorem tokens_kept_apart_in_place :
    (∃ m ∈ (quiet.steps tokensShared bobUsesBoth).minted, m.kind = .access ∧ m.token = "xxxxxx" ∧
      5 ≤ m.madeAt + tokensShared.security.jwtAccessExpiry + jwtExpLeewaySecs) ∧
    ∃ m ∈ (quiet.steps tokensShared bobUsesBoth).minted, m.kind = .refresh ∧ m.token = "xxxxxxx" := by
  have hstate : quiet.obeys tokensShared (fun traffic e => decide (Unforged tokensShared traffic e) &&
        decide (KeptApart tokensShared traffic e)) bobUsesBoth = true ∧
      (quiet.steps tokensShared bobUsesBoth).requests[2]?.bind admitted = some ("xxxxxx", 5) ∧
      (quiet.steps tokensShared bobUsesBoth).requests[3]?.bind refreshed = some "xxxxxxx" := by
    decide +kernel
  obtain ⟨hobeys, hadmitted, hrefreshed⟩ := hstate
  have hrun := Traffic.run_steps
    (P := fun traffic e => Unforged tokensShared traffic e ∧ KeptApart tokensShared traffic e)
    (fun traffic e h => by simpa using h) .start hobeys
  obtain ⟨request, hrequest, hadmitted⟩ := bind_eq_some_iff.1 hadmitted
  obtain ⟨request', hrequest', hrefreshed⟩ := bind_eq_some_iff.1 hrefreshed
  obtain ⟨session, rfl⟩ := admitted_eq_some hadmitted
  obtain ⟨stage, rfl, hpassed⟩ := refreshed_eq_some hrefreshed
  have h := tokens_kept_apart injective_id (bobDecode_of_bobEncode "n") (fun _ => rfl) hrun
  exact ⟨h.1 "xxxxxx" 5 session (mem_of_getElem? hrequest),
    h.2 stage "xxxxxxx" (mem_of_getElem? hrequest') hpassed⟩

/-- Bob's refresh token authorises an API request. And his access token is refreshed, when his session
lapses between its lookup and the check against reuse. -/
theorem tokens_interchanged :
    (∃ traffic session, Traffic.Run tokensShared (Unforged tokensShared) quiet traffic ∧
      .api (.authorised "xxxxxxx" 5 session) ∈ traffic.requests ∧
      MintedAs traffic.minted .refresh "xxxxxxx" ∧ ¬MintedAs traffic.minted .access "xxxxxxx") ∧
    ∃ traffic stage, Traffic.Run tokensShared (Unforged tokensShared) quiet traffic ∧
      .refresh stage ∈ traffic.requests ∧ stage.passed = some "xxxxxx" ∧
      ¬MintedAs traffic.minted .refresh "xxxxxx" := by
  have hok : ∀ traffic e, decide (Unforged tokensShared traffic e) = true → Unforged tokensShared traffic e :=
    fun traffic e h => of_decide_eq_true h
  refine ⟨?_, ?_⟩
  · let events := bobLogsIn ++ [.arrive (.api "xxxxxxx"), .turn 2, .turn 2]
    have hstate : quiet.obeys tokensShared (fun traffic e => decide (Unforged tokensShared traffic e)) events =
      true ∧
        (quiet.steps tokensShared events).requests[2]?.bind admitted = some ("xxxxxxx", 5) ∧
        MintedAs (quiet.steps tokensShared events).minted .refresh "xxxxxxx" ∧
        ¬MintedAs (quiet.steps tokensShared events).minted .access "xxxxxxx" := by
      decide +kernel
    obtain ⟨hobeys, hadmitted, hminted⟩ := hstate
    obtain ⟨request, hrequest, hadmitted⟩ := bind_eq_some_iff.1 hadmitted
    obtain ⟨session, rfl⟩ := admitted_eq_some hadmitted
    exact ⟨_, session, Traffic.run_steps hok .start hobeys, mem_of_getElem? hrequest, hminted⟩
  · let events := bobLogsIn ++ [.arrive (.refresh "xxxxxx"), .turn 2, .turn 2, .clock 5 (86400 * 10 ^ 9), .turn 2]
    have hstate : quiet.obeys tokensShared (fun traffic e => decide (Unforged tokensShared traffic e)) events =
      true ∧
        (quiet.steps tokensShared events).requests[2]?.bind refreshed = some "xxxxxx" ∧
        ¬MintedAs (quiet.steps tokensShared events).minted .refresh "xxxxxx" := by
      decide +kernel
    obtain ⟨hobeys, hrefreshed, hminted⟩ := hstate
    obtain ⟨request, hrequest, hrefreshed⟩ := bind_eq_some_iff.1 hrefreshed
    obtain ⟨stage, rfl, hpassed⟩ := refreshed_eq_some hrefreshed
    exact ⟨_, stage, Traffic.run_steps hok .start hobeys, mem_of_getElem? hrequest, hpassed, hminted⟩

end AffinidiTdk.Auth
