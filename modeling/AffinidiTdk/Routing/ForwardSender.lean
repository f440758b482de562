/-
Whose permissions a forward is judged by. The ingress binds the key of an authcrypted envelope to
the session's DID; routing then looks up the account and asks the recipient's access list under
the hash of the plaintext `from`, and of the empty text if there is none. So the session's sender
is the one judged exactly where the plaintext names it.
-/
import AffinidiTdk.Routing.Inbound
import AffinidiTdk.Store.Delivery

namespace AffinidiTdk.Routing

open Option
open Acl Store Didcomm Program

/-! ## A change of the recipient's list -/

/-- Some other access list for one recipient. -/
def changeList (toHash : String) (change : Option (List String) → Option (List String)) (st : MemoryState) :
    MemoryState :=
  { st with accessLists := Function.update st.accessLists toHash (change (st.accessLists toHash)) }

/-- Whether a hash is on a recipient's list, if there is one. -/
def listed (hash : String) (list : Option (List String)) : Bool := (list.map fun l => l.any (· = hash)).getD false

/-- The list with the verdict on one hash turned around. -/
def flipListed (mode : AccessListModeType) (hash : String) (list : Option (List String)) : Option (List String) :=
  match mode with
  | .explicitAllow => list.map fun l => l.filter (· ≠ hash)
  | .explicitDeny => some (hash :: list.getD [])

theorem listed_flipListed_of_ne {hash other : String} (h : other ≠ hash) (mode : AccessListModeType)
    (list : Option (List String)) : listed other (flipListed mode hash list) = listed other list := by
  cases mode with
  | explicitAllow =>
    cases list with
    | none => rfl
    | some l =>
      simp only [listed, flipListed, map_some, getD_some, List.any_filter]
      congr 1
      funext x
      by_cases hx : x = other <;> simp [hx, h]
  | explicitDeny =>
    cases list with
    | none | some l => simp [listed, flipListed, Ne.symm h]

variable {st : MemoryState}

theorem accessListAllowed_flipListed {toHash hash : String} {record : AccountRecord}
    (h : st.accounts toHash = some record) :
    accessListAllowed (changeList toHash (flipListed record.acls.getAccessListMode.1 hash) st) toHash (some hash) =
    false := by
  have haccount : (changeList toHash (flipListed record.acls.getAccessListMode.1 hash) st).accounts toHash =
    some record := h
  simp only [accessListAllowed, haccount, senderAllowed]
  cases hmode : record.acls.getAccessListMode.1 with
  | explicitAllow => cases hlist : st.accessLists toHash <;> simp [changeList, flipListed, hlist]
  | explicitDeny => cases hlist : st.accessLists toHash <;> simp [changeList, flipListed]

section Change

variable {Priv Pub Kek : Type} {state : SharedData Priv Pub Kek} {session : Session} {msg : Message}
  {toHash : String} {change : Option (List String) → Option (List String)}

theorem storeMessage_changeList (digest : String → String) (nowMs : ℕ) (message recipient : String)
    (fromHash : Option String) (expiresAt : ℕ) (st : MemoryState) :
    storeMessage digest nowMs message recipient fromHash expiresAt (changeList toHash change st) =
      ((storeMessage digest nowMs message recipient fromHash expiresAt st).1,
        changeList toHash change (storeMessage digest nowMs message recipient fromHash expiresAt st).2) := by
  have hlists := (storeMessage_sameAcls st nowMs digest message recipient fromHash expiresAt).accessLists
  rw [changeList, storeMessage_setLists, changeList, hlists]

theorem forwardQueueEnqueue_changeList (nowMs : ℕ) (entry : ForwardQueueEntry) (maxLen : ℕ) (st : MemoryState) :
    forwardQueueEnqueue nowMs entry maxLen (changeList toHash change st) =
      ((forwardQueueEnqueue nowMs entry maxLen st).1,
        changeList toHash change (forwardQueueEnqueue nowMs entry maxLen st).2) := by
  have hlists := (forwardQueueEnqueue_sameAcls st nowMs entry maxLen).accessLists
  rw [changeList, forwardQueueEnqueue_setLists, changeList, hlists]

theorem accessListAllowed_changeList (toHash : String) {fromHash : String}
    (h : ∀ list, listed fromHash (change list) = listed fromHash list) (st : MemoryState) :
    accessListAllowed (changeList toHash change st) toHash (some fromHash) =
      accessListAllowed st toHash (some fromHash) := by
  have hlisted := h (st.accessLists toHash)
  unfold listed at hlisted
  simp only [accessListAllowed, changeList, Function.update_self, hlisted]

/-! ## The parts of a forward under the change -/

variable (state toHash change) in
/-- The part does not see the change. -/
def Overlooks {α : Type} (p : Routine α) : Prop :=
  Commutes (memoryStore state.digest state.unixMillis) (changeList toHash change) p

theorem overlooks_ret {α : Type} (x : Except MediatorError α) : Overlooks state toHash change (.ret x) := .ret x

theorem overlooks_storeMessage {α : Type} (message recipient : String) (fromHash : Option String) (expiresAt : ℕ)
    {next : Except MediatorError String → Routine α} (hnext : ∀ x, Overlooks state toHash change (next x)) :
    Overlooks state toHash change (.call (.storeMessage message recipient fromHash expiresAt) next) :=
  .call (storeMessage_changeList state.digest state.unixMillis message recipient fromHash expiresAt) hnext

theorem readEphemeral_overlooks : Overlooks state toHash change (readEphemeral state session msg) := by
  unfold readEphemeral
  split
  · exact overlooks_ret _
  · exact overlooks_ret _
  · refine Commutes.bind ?_ fun _ => overlooks_ret _
    unfold notifyInvalidEphemeral
    split
    · exact overlooks_ret _
    · refine Commutes.bind (overlooks_ret _) fun packed => ?_
      exact overlooks_storeMessage _ _ _ _ fun _ => overlooks_ret _

theorem checkForwardQueue_overlooks (attachments : List Attachment) (ephemeral : Bool) :
    Overlooks state toHash change (checkForwardQueue state session msg attachments ephemeral) := by
  unfold checkForwardQueue
  split
  · exact overlooks_ret _
  · refine Commutes.bind (.call (fun _ => rfl) fun _ => .ret _) fun queued => ?_
    split
    · exact overlooks_ret _
    · exact overlooks_ret _

theorem deliverForward_overlooks (next : String) (nextAcls : MediatorACLSet) (fromAccount : Account) (data : String)
    (delayMilli : ℤ) (expires : ℕ) (ephemeral : Bool) :
    Overlooks state toHash change
      (deliverForward state session msg next nextAcls fromAccount data delayMilli expires ephemeral) := by
  unfold deliverForward
  refine Commutes.bind (overlooks_ret _) fun nextEnvelope => ?_
  split
  · exact overlooks_ret _
  split
  · exact overlooks_ret _
  split
  · split
    · exact overlooks_ret _
    · refine Commutes.bind (overlooks_ret _) fun message => ?_
      exact .bind (.call (forwardQueueEnqueue_changeList state.unixMillis _ _) fun _ => .ret _) fun _ => .ret _
  · exact overlooks_storeMessage _ _ _ _ fun _ => overlooks_ret _

/-- An account, up to the length of its list. -/
def recount (n : ℕ) (account : Account) : Account := { account with accessListCount := n }

theorem run_getOrAddAccount (didHash : String) (acls : MediatorACLSet) (st : MemoryState) :
    run (memoryStore state.digest state.unixMillis) (getOrAddAccount session msg didHash acls) st =
      match st.accounts didHash with
      | some record => (.ok (record.intoAccount didHash (((st.accessLists didHash).map List.length).getD 0)), st)
      | none => accountAdd didHash acls none st := by
  have hget : memoryStore state.digest state.unixMillis (.accountGet didHash) st = accountGet didHash st := rfl
  rw [getOrAddAccount, run_bind, run_performOr, hget, accountGet]
  cases st.accounts didHash <;> rfl

variable (state session msg toHash change) in
theorem getOrAddAccount_recount (didHash : String) (acls : MediatorACLSet) (st : MemoryState) :
    ∃ n, run (memoryStore state.digest state.unixMillis) (getOrAddAccount session msg didHash acls)
        (changeList toHash change st) =
      ((run (memoryStore state.digest state.unixMillis) (getOrAddAccount session msg didHash acls) st).1.map
        (recount n), changeList toHash change
          (run (memoryStore state.digest state.unixMillis) (getOrAddAccount session msg didHash acls) st).2) := by
  have haccounts : (changeList toHash change st).accounts didHash = st.accounts didHash := rfl
  rw [run_getOrAddAccount, run_getOrAddAccount, haccounts]
  cases st.accounts didHash with
  | some record => exact ⟨_, rfl⟩
  | none => exact ⟨0, rfl⟩

variable (state session msg toHash change) in
theorem resolveForwardSender_recount (st : MemoryState) : ∃ n, run (memoryStore state.digest state.unixMillis)
    (resolveForwardSender state session msg) (changeList toHash change st) =
    ((run (memoryStore state.digest state.unixMillis) (resolveForwardSender state session msg) st).1.map
    (recount n), changeList toHash change
    (run (memoryStore state.digest state.unixMillis) (resolveForwardSender state session msg) st).2) := by
  unfold resolveForwardSender
  split
  · rename_i sender hsender
    obtain ⟨n, hn⟩ := getOrAddAccount_recount state session msg toHash change (state.digest sender)
      (relaySenderAcls state.config.security.globalAclDefault) st
    refine ⟨n, ?_⟩
    rw [run_bind, run_bind, senderAccount, hn]
    rcases run (memoryStore state.digest state.unixMillis) (getOrAddAccount session msg (state.digest sender)
      (relaySenderAcls state.config.security.globalAclDefault)) st with ⟨_ | account, st₁⟩
    · rfl
    · have hacls : (recount n account).acls = account.acls := rfl
      simp only [Except.map, hacls]
      split <;> rfl
  · refine ⟨0, ?_⟩
    split <;> rfl

variable (state msg) in
/-- The hash a forward is judged under. -/
def forwardFrom : String := (msg.sender.map state.digest).getD ""

theorem run_resolveForwardSender {st st₁ : MemoryState} {account : Account}
    (h : run (memoryStore state.digest state.unixMillis) (resolveForwardSender state session msg) st =
      (.ok account, st₁)) :
    account.didHash = forwardFrom state msg ∧ ∀ sender, msg.sender = some sender →
      ∃ record, st₁.accounts (state.digest sender) = some record ∧ grants record.acls .sendForwarded = true := by
  unfold resolveForwardSender at h
  split at h
  · rename_i sender hsender
    rw [run_bind_eq_ok_iff] at h
    obtain ⟨found, st', hfound, h⟩ := h
    rw [senderAccount, run_getOrAddAccount] at hfound
    split at h
    · exact absurd h run_fail_ne_ok
    rename_i hgrants
    simp only [Bool.not_eq_true', Bool.not_eq_false] at hgrants
    obtain ⟨rfl, rfl⟩ := run_pure_eq_ok_iff.1 h
    simp only [forwardFrom, hsender, map_some, getD_some, Option.some.injEq, forall_eq']
    split at hfound
    · rename_i record hrecord
      cases hfound
      exact ⟨rfl, record, hrecord, hgrants⟩
    · cases hfound
      exact ⟨rfl, _, Function.update_self .., hgrants⟩
  · rename_i hsender
    split at h
    · exact absurd h run_fail_ne_ok
    · obtain ⟨rfl, rfl⟩ := run_pure_eq_ok_iff.1 h
      simp [forwardFrom, hsender, anonymousAccount]

/-- A change of the next hop's list that keeps the verdict on the plaintext `from` changes nothing
for the forward. -/
theorem process_overlooks {next : String} (hnext : parseNextDid session.sessionId msg = .ok next)
    (hlisted : ∀ list, listed (forwardFrom state msg) (change list) = listed (forwardFrom state msg) list) :
    Overlooks state (state.digest next) change (process state session msg) := by
  unfold process
  refine Commutes.bind readEphemeral_overlooks fun ephemeral => ?_
  rw [hnext, lift_ok_bind]
  refine Commutes.bind_map (fun st => ?_) fun _ nextAccount _ _ => ?_
  · obtain ⟨n, hn⟩ := getOrAddAccount_recount state session msg (state.digest next) change (state.digest next)
      state.config.security.globalAclDefault st
    exact ⟨recount n, hn, fun _ => rfl⟩
  dsimp only
  split
  · exact overlooks_ret _
  split
  · exact overlooks_ret _
  rename_i attachments _
  refine Commutes.bind_map (fun st => ?_) fun st fromAccount st₁ hfrom => ?_
  · obtain ⟨n, hn⟩ := resolveForwardSender_recount state session msg (state.digest next) change st
    exact ⟨recount n, hn, fun _ => rfl⟩
  refine Commutes.bind (.call (fun st => ?_) fun _ => .ret _) fun allowed => ?_
  · have h := accessListAllowed_changeList (state.digest next) hlisted st
    rw [← (run_resolveForwardSender hfrom).1] at h
    simp only [memoryStore, h]
  split
  · exact overlooks_ret _
  refine Commutes.bind (overlooks_ret _) fun _ => ?_
  refine Commutes.bind (checkForwardQueue_overlooks _ _) fun _ => ?_
  refine Commutes.bind (overlooks_ret _) fun _ => ?_
  refine Commutes.bind (overlooks_ret _) fun data => ?_
  exact deliverForward_overlooks _ _ _ _ _ _ _

end Change

/-! ## What an accepted forward has passed -/

/-- The DID behind a hash may forward to a recipient. -/
structure Permitted (st : MemoryState) (nextHash senderHash : String) : Prop where
  grants : ∃ record, st.accounts senderHash = some record ∧ grants record.acls .sendForwarded = true
  allowed : accessListAllowed st nextHash (some senderHash) = true

theorem Permitted.mono {st' : MemoryState} {nextHash senderHash : String} (hp : Permitted st nextHash senderHash)
    (h : SameAcls st st') : Permitted st' nextHash senderHash := by
  obtain ⟨⟨record, hrecord, hgrants⟩, hallowed⟩ := hp
  obtain ⟨record', hrecord', hacls⟩ := h.acls hrecord
  exact ⟨⟨record', hrecord', hacls ▸ hgrants⟩, h.allowed hallowed⟩

section Accepted

variable {Priv Pub Kek : Type} {state : SharedData Priv Pub Kek} {session : Session} {msg : Message}

variable {ephemeral : Bool} {st st₁ : MemoryState}

theorem checkForwardQueue_state {attachments : List Attachment}
    (h : run (memoryStore state.digest state.unixMillis)
    (checkForwardQueue state session msg attachments ephemeral) st = (.ok (), st₁)) : st₁ = st := by
  unfold checkForwardQueue at h
  split at h
  · exact (run_pure_eq_ok_iff.1 h).2.symm
  · rw [run_bind_eq_ok_iff] at h
    obtain ⟨queued, st', hlen, h⟩ := h
    cases hlen
    split at h
    · exact absurd h run_fail_ne_ok
    · exact (run_pure_eq_ok_iff.1 h).2.symm

theorem deliverForward_sameAcls {next : String} {nextAcls : MediatorACLSet} {fromAccount : Account} {data : String}
    {delayMilli : ℤ} {expires : ℕ}
    (h : run (memoryStore state.digest state.unixMillis)
    (deliverForward state session msg next nextAcls fromAccount data delayMilli expires ephemeral) st =
    (.ok (), st₁)) : SameAcls st st₁ := by
  unfold deliverForward at h
  simp only [run_bind_eq_ok_iff, run_lift_eq_ok_iff] at h
  obtain ⟨envelope, _, ⟨-, rfl⟩, h⟩ := h
  split at h
  · exact absurd h run_fail_ne_ok
  split at h
  · rw [← (run_pure_eq_ok_iff.1 h).2]
    exact .refl _
  split at h
  · split at h
    · exact absurd h run_fail_ne_ok
    · simp only [run_bind_eq_ok_iff, run_lift_eq_ok_iff] at h
      obtain ⟨message, _, ⟨-, rfl⟩, id, st', henqueue, h⟩ := h
      cases henqueue
      rw [← (run_pure_eq_ok_iff.1 h).2]
      exact forwardQueueEnqueue_sameAcls _ _ _ _
  · unfold storeForwardedMessage at h
    rw [run_bind_eq_ok_iff] at h
    obtain ⟨outcome, st', hstore, h⟩ := h
    cases hstore
    rw [← (run_pure_eq_ok_iff.1 h).2]
    exact storeMessage_sameAcls _ _ _ _ _ _ _

/-- An accepted forward has been judged under the plaintext `from`: the access list of its next hop
lets that hash through and, if there is a `from`, its account may forward. -/
theorem process_permitted {next : String} (hnext : parseNextDid session.sessionId msg = .ok next)
    (h : run (memoryStore state.digest state.unixMillis) (process state session msg) st = (.ok (), st₁))
    {sender : String} (hsender : msg.sender = some sender) : Permitted st₁ (state.digest next)
    (state.digest sender) := by
  unfold process at h
  simp only [hnext, lift_ok_bind, run_bind_eq_ok_iff] at h
  obtain ⟨ephemeral, st₂, -, nextAccount, st₃, -, h⟩ := h
  split at h
  · simp [run_bind_eq_ok_iff, run_fail_ne_ok] at h
  split at h
  · exact absurd h run_fail_ne_ok
  simp only [run_bind_eq_ok_iff] at h
  obtain ⟨fromAccount, st₄, hfrom, allowed, st₅, hallowed, h⟩ := h
  obtain ⟨hhash, hgrants⟩ := run_resolveForwardSender hfrom
  cases hallowed
  split at h
  · simp [run_bind_eq_ok_iff, run_fail_ne_ok] at h
  rename_i hallowed
  simp only [run_bind_eq_ok_iff, run_lift_eq_ok_iff] at h
  obtain ⟨_, _, ⟨-, rfl⟩, _, st₆, hqueue, _, _, ⟨-, rfl⟩, data, _, ⟨-, rfl⟩, h⟩ := h
  rw [checkForwardQueue_state hqueue] at h
  have hpermitted : Permitted st₄ (state.digest next) (state.digest sender) := by
    refine ⟨hgrants sender hsender, ?_⟩
    rw [hhash, forwardFrom, hsender] at hallowed
    simpa [memoryStore, Except.toOption] using hallowed
  exact hpermitted.mono (deliverForward_sameAcls h)

/-- The ingress accepts a forward addressed to the mediator exactly when its checks on the envelope
pass and routing accepts it. -/
theorem handleInboundDidcomm_forward {protocols : Protocols} {text : String} {metadata : UnpackMetadata}
    (hopened : opened state session text = some (msg, metadata)) (htyp : msg.typ = Sdk.forwardType)
    {response : InboundMessageResponse} : run (memoryStore state.digest state.unixMillis)
    (handleInboundDidcomm state protocols session text) st = (.ok response, st₁) ↔ response = .forwarded ∧
    admitMessage state session msg metadata = .ok () ∧ msg.expiresTime.any (· ≤ state.unixSecs) = false ∧
    run (memoryStore state.digest state.unixMillis) (process state session msg) st = (.ok (), st₁) := by
  unfold opened at hopened
  simp only [bind_eq_bind, bind_eq_some_iff, Fallible.toOption_eq_some_iff] at hopened
  obtain ⟨message, harriving, envelope, hnew, hopened⟩ := hopened
  split at hopened
  swap
  · cases hopened
  rename_i hto
  have hread : readEnvelope state session message = .ok envelope := by
    rw [readEnvelope, hnew]
    rfl
  have hunpack : unpackEnvelope state session message envelope = .ok (msg, metadata) := by
    rw [unpackEnvelope, Fallible.toOption_eq_some_iff.1 hopened]
    rfl
  have hhandle : handleInboundDidcomm state protocols session text =
      receiveMessage state protocols session msg metadata := by
    unfold handleInboundDidcomm
    rw [harriving, lift_ok_bind, hread, lift_ok_bind, hto]
    simp only [if_true, hunpack, lift_ok_bind]
  rw [hhandle]
  unfold receiveMessage processMessage
  simp only [run_bind_eq_ok_iff, run_lift_eq_ok_iff, htyp, if_true]
  constructor
  · rintro ⟨_, _, ⟨hchecked, rfl⟩, answer, st₂, hprocess, hstore⟩
    split at hprocess
    · exact absurd hprocess run_fail_ne_ok
    rename_i hexpired
    rw [run_bind_eq_ok_iff] at hprocess
    obtain ⟨_, st₃, hprocess, hanswer⟩ := hprocess
    obtain ⟨rfl, rfl⟩ := run_pure_eq_ok_iff.1 hanswer
    obtain ⟨rfl, rfl⟩ := run_pure_eq_ok_iff.1 hstore
    exact ⟨rfl, hchecked, by simpa using hexpired, hprocess⟩
  · rintro ⟨rfl, hchecked, hexpired, hprocess⟩
    refine ⟨(), st, ⟨hchecked, rfl⟩, { forwardMessage := true }, st₁, ?_, rfl⟩
    rw [if_neg (by simp [hexpired]), run_bind_eq_ok_iff]
    exact ⟨(), st₁, hprocess, rfl⟩

/-! ## The session's sender -/

variable (state session) in
/-- Whenever the ingress accepts the text, the session's DID may forward to the next hop. -/
def JudgesSession (protocols : Protocols) (text next : String) : Prop :=
  ∀ st st₁ response,
    run (memoryStore state.digest state.unixMillis) (handleInboundDidcomm state protocols session text) st =
      (.ok response, st₁) →
    Permitted st₁ (state.digest next) (state.digest session.did)

/-- The session's sender is judged exactly where the plaintext `from` is the session's DID, up to
its hash. -/
theorem judgesSession_iff (state : SharedData Priv Pub Kek) (protocols : Protocols) (session : Session)
    (text next : String) (msg : Message) (metadata : UnpackMetadata)
    (hdigest : ∀ did, state.digest did ≠ "")
    (hopened : opened state session text = some (msg, metadata)) (htyp : msg.typ = Sdk.forwardType)
    (hnext : parseNextDid session.sessionId msg = .ok next)
    (haccepted : ∃ st st₁ response,
      run (memoryStore state.digest state.unixMillis) (handleInboundDidcomm state protocols session text) st =
        (.ok response, st₁)) :
    JudgesSession state session protocols text next ↔
      msg.sender.map state.digest = some (state.digest session.did) := by
  constructor
  · intro hjudges
    by_contra hne
    have hhash : forwardFrom state msg ≠ state.digest session.did := by
      unfold forwardFrom
      cases hsender : msg.sender with
      | none => exact (hdigest _).symm
      | some sender => simpa [hsender] using hne
    obtain ⟨st, st₁, response, h⟩ := haccepted
    obtain ⟨rfl, hchecked, hexpired, hprocess⟩ := (handleInboundDidcomm_forward hopened htyp).1 h
    obtain ⟨-, hallowed⟩ := hjudges st st₁ _ h
    cases haccount : st₁.accounts (state.digest next) with
    | none => simp [accessListAllowed, haccount] at hallowed
    | some record =>
      -- the same forward, with the session's sender shut out by the list of the next hop
      have hflip := process_overlooks hnext (listed_flipListed_of_ne hhash record.acls.getAccessListMode.1) st
      rw [hprocess] at hflip
      obtain ⟨-, hshut⟩ := hjudges _ _ _
        ((handleInboundDidcomm_forward hopened htyp).2 ⟨rfl, hchecked, hexpired, hflip⟩)
      rw [accessListAllowed_flipListed haccount] at hshut
      cases hshut
  · intro hfrom st st₁ response h
    obtain ⟨-, -, -, hprocess⟩ := (handleInboundDidcomm_forward hopened htyp).1 h
    obtain ⟨sender, hsender, hhash⟩ := map_eq_some_iff.1 hfrom
    rw [← hhash]
    exact process_permitted hnext hprocess hsender

end Accepted

/-! ## A borrowed `from`

Carol's list shuts Mallory out. Mallory's session authcrypts a forward to Carol that names Alice as
its `from`. -/

namespace Borrowed

open Fallible

def header : Json :=
  .obj [("alg", .str "ECDH-1PU+A256KW"), ("enc", .str "A256CBC-HS512"), ("skid", .str "did:x:mallory#1"),
    ("apu", .str "ZGlkOng6bWFsbG9yeSMx"), ("apv", .str "ZGlkOng6Ym9iIzE"), ("epk", .obj [("x", .str "epk")])]

def headerText : String :=
  "\x7b\"alg\":\"ECDH-1PU+A256KW\",\"enc\":\"A256CBC-HS512\",\"skid\":\"did:x:mallory#1\"," ++
  "\"apu\":\"ZGlkOng6bWFsbG9yeSMx\",\"apv\":\"ZGlkOng6Ym9iIzE\",\"epk\":\x7b\"x\":\"epk\"\x7d\x7d"

def headerB64 : String :=
  "eyJhbGciOiJFQ0RILTFQVStBMjU2S1ciLCJlbmMiOiJBMjU2Q0JDLUhTNTEyIiwic2tpZCI6ImRpZDp4Om1hbGxvcnkjMSIsImFwdSI6" ++
  "IlpHbGtPbmc2YldGc2JHOXllU014IiwiYXB2IjoiWkdsa09uZzZZbTlpSXpFIiwiZXBrIjp7IngiOiJlcGsifX0"

def recipients : List Json :=
  [.obj [("header", .obj [("kid", .str "did:x:bob#1")]), ("encrypted_key", .str "AAAAAAAAAAA")]]

def jwe : Jwe := { Forged.jwe with protectedHeader := headerB64 }

def envelope : Json :=
  .obj [("protected", .str headerB64), ("recipients", .arr recipients), ("iv", .str jwe.iv),
    ("ciphertext", .str jwe.ciphertext), ("tag", .str jwe.tag)]

def text : String :=
  "\x7b\"protected\":\"" ++ headerB64 ++ "\",\"recipients\":[\x7b\"header\":\x7b\"kid\":\"did:x:bob#1\"\x7d," ++
  "\"encrypted_key\":\"AAAAAAAAAAA\"\x7d],\"iv\":\"AAAAAAAAAAAAAAAAAAAAAA\",\"ciphertext\":\"AAAAAAAAAAA\"," ++
  "\"tag\":\"AAAAAAAAAAAAAAAAAAAAAAAAAAAAAAAAAAAAAAAAAAA\"\x7d"

def message : Message :=
  { id := "f-1", typ := Sdk.forwardType, sender := some "did:x:alice", body := .obj [("next", .str "did:x:carol")],
    attachments := some [{ base64 := some "eyJ0eXBlIjoiYSJ9" }] }

def sealedText : String :=
  "\x7b\"id\":\"f-1\",\"type\":\"https://didcomm.org/routing/2.0/forward\",\"from\":\"did:x:alice\"," ++
  "\"body\":\x7b\"next\":\"did:x:carol\"\x7d,\"attachments\":[\x7b\"data\":\x7b\"base64\":\"eyJ0eXBlIjoiYSJ9\"\x7d\x7d]\x7d"

def innerText : String := "\x7b\"type\":\"a\"\x7d"

def codec : Codec := { Forged.codec with
  fromStr := fun s =>
    if s = innerText then .ok (.obj [("type", .str "a")])
    else if s = text then .ok envelope
    else .error "expected value"
  fromSlice := fun bytes => if bytes = utf8 headerText then .ok header else .error "expected value"
  message := fun bytes => if bytes = utf8 sealedText then .ok message else .error "expected value"
  base64 := fun s =>
    if s = headerB64 then .ok (utf8 headerText)
    else if s = "ZGlkOng6bWFsbG9yeSMx" then .ok (utf8 "did:x:mallory#1")
    else if s = "eyJ0eXBlIjoiYSJ9" then .ok (utf8 innerText)
    else Forged.codec.base64 s }

/-- What Mallory wrapped the content key under. -/
def agreement : Agreement String := { Forged.agreement with apu := utf8 "did:x:mallory#1" }

def crypto : Crypto String String (Agreement String) := { Forged.crypto with
  unwrap := fun kek wrapped =>
    if kek = agreement ∧ wrapped = List.replicate 8 0 then .ok (List.replicate 64 0)
    else .error "integrity check failed"
  decrypt := fun _ _ _ _ _ => .ok (utf8 sealedText) }

def ring : Keyring String String (Agreement String) := { Forged.ring with codec, crypto }

def digest (did : String) : String := "h:" ++ did

def config : Config where
  mediatorDid := "did:x:bob"
  mediatorDidHash := digest "did:x:bob"
  security := ⟨default, true, true, false, false⟩
  limits := ⟨100, 100, 10, 100, 3600, 10⟩
  forwarding := ⟨false, .blind, 10, [], 0⟩

def state : SharedData String String (Agreement String) where
  config := config
  ring := ring
  digest := digest
  unixSecs := 0
  unixMillis := 0
  remoteEndpoint _ := none
  rewrapForRelay data _ _ := .ok data
  packNotice _ _ := .ok "notice"

def session : Session := ⟨⟨"s", "did:x:mallory", digest "did:x:mallory", default, .standard⟩, true⟩

def protocols : Protocols := ⟨fun _ _ _ => pure {}, fun _ _ _ _ => .ok "answer"⟩

/-- Alice may forward; Carol takes forwards from everybody but Mallory. -/
def store : MemoryState := { (default : MemoryState) with
  accounts := fun hash =>
    if hash = "h:did:x:alice" then some { (default : AccountRecord) with acls := ⟨256#64⟩ }
    else if hash = "h:did:x:carol" then some { (default : AccountRecord) with acls := ⟨17409#64⟩ }
    else none
  accessLists := fun hash => if hash = "h:did:x:carol" then some ["h:did:x:mallory"] else none }

/-! ### The run of the envelope -/

def metadata : UnpackMetadata :=
  ⟨true, true, false, false, some "did:x:mallory#1", ["did:x:bob#1"], none, text⟩

theorem evaluated :
    opened state session text = some (message, metadata) ∧ admitMessage state session message metadata = .ok () ∧
    (let outcome := run (memoryStore state.digest state.unixMillis) (process state session message) store
     outcome.1 = .ok () ∧
      accessListAllowed outcome.2 (digest "did:x:carol") (some (digest session.did)) = false) := by
  decide +kernel

theorem accepted_text : ∃ st₁, run (memoryStore state.digest state.unixMillis)
    (handleInboundDidcomm state protocols session text) store = (.ok .forwarded, st₁) := by
  obtain ⟨hopened, hchecked, hprocess, -⟩ := evaluated
  exact ⟨_, (handleInboundDidcomm_forward hopened rfl).2 ⟨rfl, hchecked, rfl, Prod.ext hprocess rfl⟩⟩

end Borrowed

open Borrowed

/-- With both checks on the envelope on, Mallory's forward is accepted under Alice's name, and
Carol's list does not let Mallory through. -/
theorem borrowed_from_accepted :
    config.security.forceSessionDidMatch = true ∧
    config.security.blockAnonymousOuterEnvelope = true ∧ session.authenticated = true ∧
    opened state session text = some (message, metadata) ∧
    metadata.authenticated = true ∧ metadata.encryptedFromKid = some "did:x:mallory#1" ∧
    ∃ st₁, run (memoryStore state.digest state.unixMillis)
      (handleInboundDidcomm state protocols session text) store =
        (.ok .forwarded, st₁) ∧
      ¬Permitted st₁ (digest "did:x:carol") (digest session.did) := by
  obtain ⟨hopened, -, -, hdenied⟩ := evaluated
  refine ⟨rfl, rfl, rfl, hopened, rfl, rfl, ?_⟩
  obtain ⟨st₁, h⟩ := accepted_text
  refine ⟨st₁, h, fun hpermitted => ?_⟩
  obtain ⟨-, -, -, hprocess⟩ := (handleInboundDidcomm_forward hopened rfl).1 h
  rw [hprocess] at hdenied
  exact absurd hpermitted.allowed (by simp [hdenied])

/-- Mallory's forward is judged by Mallory's permissions exactly if its `from` is Mallory. -/
theorem judgesSession_borrowed :
    JudgesSession state session protocols text "did:x:carol" ↔
      message.sender.map digest = some (digest session.did) := by
  refine judgesSession_iff state protocols session text "did:x:carol"
    message metadata ?_ evaluated.1 rfl rfl ?_
  · intro did h
    have := congrArg String.length h
    simp [state, digest] at this
  · obtain ⟨st₁, h⟩ := accepted_text
    exact ⟨_, st₁, _, h⟩

end AffinidiTdk.Routing
