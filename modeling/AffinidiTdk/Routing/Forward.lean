/-
The routing protocol (`protocols/routing.rs`, `messages/store.rs`): a forward is judged, registers
the accounts it meets, and is queued for a remote mediator or stored for a local recipient. Every
store call is a call of the program, so a forward can be run alone or among others. Live streaming,
metrics and log lines are left out; packing, the lookup of a remote endpoint and the other
protocols are parameters.
-/
import AffinidiTdk.Lib.Program
import AffinidiTdk.Mediator.Shared
import AffinidiTdk.Routing.Relay
import AffinidiTdk.Store.ForwardQueue

namespace AffinidiTdk.Routing

open Acl Store Didcomm Program

/-! ## Configuration and session -/

/-- The limits the handler reads. -/
structure LimitsConfig where
  queuedSendMessagesSoft : ℤ
  queuedReceiveMessagesSoft : ℤ
  attachmentsMaxCount : ℕ
  forwardTaskQueue : ℕ
  messageExpirySeconds : ℕ
  toRecipients : ℕ

/-- The security settings the handler reads. -/
structure SecurityConfig where
  globalAclDefault : MediatorACLSet
  forceSessionDidMatch : Bool
  blockAnonymousOuterEnvelope : Bool
  localDirectDeliveryAllowed : Bool
  localDirectDeliveryAllowAnon : Bool

/-- The settings the handler reads. -/
structure Config where
  mediatorDid : String
  mediatorDidHash : String
  security : SecurityConfig
  limits : LimitsConfig
  forwarding : ForwardingConfig

/-- A session that may not be authenticated. -/
structure Session extends Mediator.Session where
  authenticated : Bool

/-- The mediator as a request sees it. `rewrapForRelay` packs an inner text for a peer mediator,
`packNotice` a problem report for the session's DID, `remoteEndpoint` is the endpoint of a DID
that another mediator serves. -/
structure SharedData (Priv Pub Kek : Type) where
  config : Config
  ring : Keyring Priv Pub Kek
  digest : String → String
  unixSecs : ℕ
  unixMillis : ℕ
  remoteEndpoint : String → Option String
  rewrapForRelay : String → String → ℕ → Except MediatorError String
  packNotice : Session → String → Except MediatorError String

/-! ## The store's interface -/

/-- The store calls of the handler, with the type of what each gives. -/
inductive StoreCall : Type → Type
  | accountExists (didHash : String) : StoreCall Bool
  | accountGet (didHash : String) : StoreCall (Option Account)
  | accountAdd (didHash : String) (acls : MediatorACLSet) : StoreCall Account
  | getDidAcl (didHash : String) : StoreCall (Option MediatorACLSet)
  | accessListAllowed (toHash : String) (fromHash : Option String) : StoreCall Bool
  | forwardQueueLen : StoreCall ℕ
  | forwardQueueEnqueue (entry : ForwardQueueEntry) (maxLen : ℕ) : StoreCall StreamId
  | storeMessage (message toDidHash : String) (fromHash : Option String) (expiresAt : ℕ) : StoreCall String

/-- The in-memory store's answer to a call. -/
def memoryStore (digest : String → String) (nowMs : ℕ) {β : Type} : StoreCall β → StoreOp β
  | .accountExists didHash => accountExists didHash
  | .accountGet didHash => accountGet didHash
  | .accountAdd didHash acls => accountAdd didHash acls none
  | .getDidAcl didHash => getDidAcl didHash
  | .accessListAllowed toHash fromHash => fun st => (.ok (accessListAllowed st toHash fromHash), st)
  | .forwardQueueLen => forwardQueueLen
  | .forwardQueueEnqueue entry maxLen => forwardQueueEnqueue nowMs entry maxLen
  | .storeMessage message toDidHash fromHash expiresAt =>
      storeMessage digest nowMs message toDidHash fromHash expiresAt

/-- A handler as a program over the store. -/
abbrev Routine := Program MediatorError StoreCall

/-! ## Parts of a forward -/

/-- The `DENY_ALL` rule set. -/
def denyAll : Except ACLError MediatorACLSet := do
  let acls ← (default : MediatorACLSet).setAccessListMode .explicitAllow false true
  let acls := acls.setLocal false
  let acls ← acls.setSendMessages false false true
  let acls ← acls.setReceiveMessages false false true
  let acls ← acls.setSendForwarded false false true
  let acls ← acls.setReceiveForwarded false false true
  let acls ← acls.setCreateInvites false false true
  let acls ← acls.setAnonReceive false false true
  let acls := acls.setSelfManageList false
  let acls := acls.setSelfManageSendQueueLimit false
  return acls.setSelfManageReceiveQueueLimit false

/-- What a sender unknown so far is registered with. -/
def relaySenderAcls (globalAclDefault : MediatorACLSet) : MediatorACLSet :=
  let acls := (denyAll.toOption).getD default
  if grants globalAclDefault .sendForwarded then (acls.setSendForwarded true false true).toOption.getD acls else acls

def asU32 (v : ℤ) : ℕ := (v % 2 ^ 32).toNat

def queueAtCapacity (queued incoming : ℕ) (limit : ℤ) (ephemeral : Bool) : Bool :=
  limit ≠ -1 && !ephemeral && decide ((queued + incoming) % 2 ^ 32 ≥ asU32 limit)

/-- `i64::abs`, which leaves the smallest number as it is. -/
def wrappingAbs (v : ℤ) : ℤ := if v = -2 ^ 63 then v else v.natAbs

def Json.asU64 : Json → Option ℕ
  | .int n => if 0 ≤ n ∧ n < 2 ^ 64 then some n.toNat else none
  | _ => none

section Parts

variable (sessionId : String) (msg : Message)

/-- A problem report of the routing protocol about this message. -/
def problem (code : ℕ) (sorter : ProblemReportSorter) (scope : ProblemReportScope) (descriptor comment : String)
    (args : List String) (status : ℕ) : MediatorError :=
  .problem code sessionId (some msg.id) sorter scope descriptor comment args status

/-- A problem report with the reason in the comment and in the log. -/
def problemFor (code : ℕ) (sorter : ProblemReportSorter) (scope : ProblemReportScope) (descriptor comment : String)
    (reason : String) (status : ℕ) : MediatorError :=
  .problemWithLog code sessionId (some msg.id) sorter scope descriptor (comment ++ ": \x7b1\x7d") [reason] status
    (comment ++ ": " ++ reason)

def storageError (e : MediatorError) : MediatorError :=
  problemFor sessionId msg 14 .error .protocol "me.res.storage.error" "Database transaction error" e.display 503

def parseNextDid : Except MediatorError String :=
  match forwardRequest msg.body with
  | .ok (some next) => .ok next
  | .ok none => .error (problem sessionId msg 56 .warning .message "protocol.forwarding.next.missing"
      "Forwarding message is missing next field" [] 400)
  | .error e => .error (problemFor sessionId msg 57 .warning .message "protocol.forwarding.parse"
      "Failed to parse forwarding message body. Reason" e 400)

/-- The inner text of the first attachment: base64, else unsigned JSON. -/
def decodeFirstAttachment (codec : Codec) (attachments : List Attachment) : Except MediatorError String :=
  match attachments with
  | [] => .error (problem sessionId msg 59 .warning .message "protocol.forwarding.attachments.missing"
      "Forward message has empty attachments list" [] 400)
  | attachment :: _ =>
    match attachment.base64, attachment.json with
    | some b64, _ =>
      match codec.base64 b64 with
      | .ok bytes =>
        match fromUtf8 bytes with
        | some data => .ok data
        | none => .error (badBase64 "invalid utf-8 sequence")
      | .error e => .error (badBase64 e)
    | none, some json =>
      if attachment.jws.isSome then
        .error (problem sessionId msg 66 .error .protocol "me.not_implemented"
          "JWS verified attachments are not yet supported by this mediator" [] 501)
      else (codec.toStr json).mapError fun e => problemFor sessionId msg 67 .warning .message
        "protocol.forwarding.attachments.json.invalid" "Invalid attachment JSON schema. Reason" e 400
    | none, none =>
      if attachment.links.isSome then
        .error (problem sessionId msg 66 .error .protocol "me.not_implemented"
          "Linked attachments are not yet supported by this mediator" [] 501)
      else .error (problem sessionId msg 67 .warning .message "protocol.forwarding.attachments.unknown"
        "Attachment data format is not supported" [] 400)
where
  badBase64 (e : String) : MediatorError :=
    problemFor sessionId msg 68 .warning .message "protocol.forwarding.attachments.base64"
      "Failed to decode base64 attachment. Reason" e 400

end Parts

/-! ## The program -/

section Routines

variable {Priv Pub Kek : Type} (state : SharedData Priv Pub Kek) (session : Session) (msg : Message)

/-- The expiry a message asks for, at most the mediator's. -/
def expiresAt : Option ℕ → ℕ
  | some expires => min expires (state.unixSecs + state.config.limits.messageExpirySeconds)
  | none => state.unixSecs + state.config.limits.messageExpirySeconds

/-- `store_forwarded_message`: a store that fails is only logged. -/
def storeForwardedMessage (message : String) (senderHash : Option String) (recipient : String)
    (expires : Option ℕ) : Routine Unit := do
  let _ ← attempt (.storeMessage message (state.digest recipient) senderHash (expiresAt state expires))

/-- The problem report about an `ephemeral` header that is no flag, stored for the sender. -/
def notifyInvalidEphemeral : Routine Unit := do
  if state.config.limits.toRecipients < 1 then
    fail (.problemWithLog 76 session.sessionId none .error .protocol "message.recipients.too_many"
      "Message has too many recipients (\x7b1\x7d). Max: \x7b2\x7d"
      ["1", toString state.config.limits.toRecipients] 500
      s!"Message has too many recipients (1). Max: {state.config.limits.toRecipients}")
  let packed ← lift (state.packNotice session msg.id)
  let _ ← attempt (.storeMessage packed (state.digest session.did) (some state.config.mediatorDidHash)
    (min (state.unixSecs + 300) (state.unixSecs + state.config.limits.messageExpirySeconds)))

def readEphemeral : Routine Bool :=
  match msg.extra.lookup "ephemeral" with
  | none => pure false
  | some (.bool b) => pure b
  | some _ => do
    notifyInvalidEphemeral state session msg
    pure false

/-- An account, added with these ACLs if it is not there. -/
def getOrAddAccount (didHash : String) (acls : MediatorACLSet) : Routine Account := do
  match ← performOr (storageError session.sessionId msg) (.accountGet didHash) with
  | some account => pure account
  | none => performOr (storageError session.sessionId msg) (.accountAdd didHash acls)

/-- The account of the next hop, registered with the default ACL on first contact. -/
def resolveNextAccount (nextDidHash : String) : Routine Account :=
  getOrAddAccount session msg nextDidHash state.config.security.globalAclDefault

def notAllowedToForward : MediatorError :=
  problem session.sessionId msg 60 .error .protocol "authorization.send_forwarded"
    "Sender isn't allowed to send forwarded messages" [] 403

/-- The account of the message's `from`, registered with a relay ACL on first contact. -/
def senderAccount (sender : String) : Routine Account :=
  getOrAddAccount session msg (state.digest sender) (relaySenderAcls state.config.security.globalAclDefault)

/-- The account a message without `from` is judged as. -/
def anonymousAccount : Account :=
  ⟨"", state.config.security.globalAclDefault.toU64, .standard, 0, none, none, 0, 0, 0, 0⟩

/-- Whose forward this is: the `from` of the plaintext, and without one nobody's, under the ACL of
the session. -/
def resolveForwardSender : Routine Account :=
  match msg.sender with
  | some sender => do
    let account ← senderAccount state session msg sender
    if !grants (.fromU64 account.acls) .sendForwarded then
      fail (notAllowedToForward session msg)
    else pure account
  | none =>
    if !grants session.acls .sendForwarded then
      fail (notAllowedToForward session msg)
    else pure (anonymousAccount state)

def hopCount : ℕ := ((msg.extra.lookup "hop_count").bind Json.asU64).getD 0 % 2 ^ 32

/-- What goes on the wire to a remote mediator. -/
def relayMessage (data next : String) : Except MediatorError String :=
  match state.config.forwarding.relayMode with
  | .blind => .ok data
  | .rewrap => state.rewrapForRelay data next (hopCount msg + 1)

/-- The entry of the forward queue for a remote next hop. -/
def forwardEntry (next endpointUrl message : String) (fromAccount : Account) (delayMilli : ℤ) (expires : ℕ) :
    ForwardQueueEntry :=
  { message
    toDidHash := state.digest next
    fromDidHash := fromAccount.didHash
    fromDid := msg.sender.getD ""
    toDid := next
    endpointUrl
    receivedAtMs := state.unixMillis
    delayMilli
    expiresAt := expires
    retryCount := 0
    hopCount := hopCount msg + 1 }

/-- The endpoint of a next hop that is not ours. -/
def remoteNext (next : String) : Option String :=
  if state.config.forwarding.externalForwarding then state.remoteEndpoint next else none

def deliverForward (next : String) (nextAcls : MediatorACLSet) (fromAccount : Account) (data : String)
    (delayMilli : ℤ) (expires : ℕ) (ephemeral : Bool) : Routine Unit := do
  let nextEnvelope ← lift ((MetaEnvelope.new state.ring data).mapError fun e =>
    .problemWithLog 37 session.sessionId (some msg.id) .error .protocol "message.envelope.read"
      "Couldn't read forward attached DIDComm envelope: \x7b1\x7d" [e] 400 s!"Couldn't read DIDComm envelope: {e}")
  if nextEnvelope.fromDid.isNone && !nextAcls.getAnonReceive.1 then
    fail (problem session.sessionId msg 69 .error .protocol "authorization.receive_anon"
      "Recipient isn't accepting anonymous messages" [] 403)
  else if ephemeral then
    pure ()
  else
    match remoteNext state next with
    | some endpointUrl =>
      if hopCount msg ≥ state.config.forwarding.maxHops then
        fail (.problemWithLog 94 session.sessionId (some msg.id) .error .protocol
          "protocol.forwarding.loop_detected"
          "Message exceeded maximum hop count (\x7b1\x7d), possible forwarding loop"
          [toString state.config.forwarding.maxHops] 508
          s!"Message exceeded maximum hop count ({state.config.forwarding.maxHops}), possible forwarding loop")
      else do
        let message ← lift (relayMessage state msg data next)
        let _ ← performOr
          (fun e => problemFor session.sessionId msg 90 .error .protocol "me.res.forwarding.enqueue"
            "Failed to enqueue message for remote forwarding" e.display 503)
          (.forwardQueueEnqueue (forwardEntry state msg next endpointUrl message fromAccount delayMilli expires)
            state.config.limits.forwardTaskQueue)
    | none => storeForwardedMessage state data (some fromAccount.didHash) next (some expires)

def delayMilli : ℤ := ((msg.extra.lookup "delay_milli").bind Json.asI64).getD 0

/-- `limits.queue.sender` and `limits.queue.recipient`. -/
def validateSenderQueueLimit (fromAccount : Account) (attachmentCount : ℕ) (ephemeral : Bool) :
    Except MediatorError Unit :=
  if queueAtCapacity fromAccount.sendQueueCount attachmentCount
      (fromAccount.queueSendLimit.getD state.config.limits.queuedSendMessagesSoft) ephemeral then
    .error (problem session.sessionId msg 61 .error .protocol "limits.queue.sender"
      "Sender has too many messages waiting to be delivered" [] 503)
  else .ok ()

def validateRecipientQueueLimit (nextAccount : Account) (attachmentCount : ℕ) (ephemeral : Bool) :
    Except MediatorError Unit :=
  if queueAtCapacity nextAccount.receiveQueueCount attachmentCount
      (nextAccount.queueReceiveLimit.getD state.config.limits.queuedReceiveMessagesSoft) ephemeral then
    .error (problem session.sessionId msg 62 .error .protocol "limits.queue.recipient"
      "Recipient (next) has too many messages waiting to be delivered" [] 503)
  else .ok ()

/-- The checks between the access list and the forward queue. -/
def validateLimits (fromAccount nextAccount : Account) (attachments : List Attachment) (ephemeral : Bool) :
    Except MediatorError Unit := do
  validateSenderQueueLimit state session msg fromAccount attachments.length ephemeral
  validateRecipientQueueLimit state session msg nextAccount attachments.length ephemeral
  if attachments.length > state.config.limits.attachmentsMaxCount then
    .error (.problemWithLog 63 session.sessionId (some msg.id) .warning .message
      "protocol.forwarding.attachments.too_many"
      "Forwarded message has too many attachments (\x7b1\x7d). Limit is (\x7b2\x7d)"
      [toString attachments.length, toString state.config.limits.attachmentsMaxCount] 400
      s!"Forwarded message has too many attachments ({attachments.length}). Limit is ({state.config.limits.attachmentsMaxCount})")

def validateDelay : Except MediatorError Unit :=
  let limit := state.config.forwarding.futureTimeLimit * 1000
  if wrappingAbs (delayMilli msg) > (limit : ℤ) then
    .error (problemFor session.sessionId msg 65 .warning .message "protocol.forwarding.delay_milli"
      "Forward delay_milli field isn't valid. Max field value" (toString limit) 400)
  else .ok ()

/-- No room in the forward queue for a forward that is to be kept. -/
def checkForwardQueue (attachments : List Attachment) (ephemeral : Bool) : Routine Unit :=
  if ephemeral then pure ()
  else do
    let queued ← perform .forwardQueueLen
    if queued ≥ state.config.limits.forwardTaskQueue then
      fail (problem session.sessionId msg 64 .error .protocol "me.res.forwarding.queue.limit"
        "Mediator forwarding queue is at max limit, try again later"
        [toString attachments.length, toString state.config.limits.attachmentsMaxCount] 503)
    else pure ()

/-- `routing::process`; its answer to the caller is that the message was forwarded. -/
def process : Routine Unit := do
  let ephemeral ← readEphemeral state session msg
  let next ← lift (parseNextDid session.sessionId msg)
  let nextDidHash := state.digest next
  let nextAccount ← resolveNextAccount state session msg nextDidHash
  if !grants (.fromU64 nextAccount.acls) .receiveForwarded then
    fail (problem session.sessionId msg 58 .error .protocol "authorization.receive_forwarded"
      "Recipient isn't accepting forwarded messages" [] 403)
  match msg.attachments with
  | none => fail (problem session.sessionId msg 59 .warning .message "protocol.forwarding.attachments.missing"
      "There were no attachments for this forward message" [] 400)
  | some attachments => do
    let fromAccount ← resolveForwardSender state session msg
    let allowed ← attempt (.accessListAllowed nextDidHash (some fromAccount.didHash))
    if !(allowed.toOption.getD false) then
      fail (problem session.sessionId msg 73 .error .protocol "authorization.access_list.denied"
        "Delivery blocked due to ACLs (access_list denied)" [] 403)
    lift (validateLimits state session msg fromAccount nextAccount attachments ephemeral)
    checkForwardQueue state session msg attachments ephemeral
    lift (validateDelay state session msg)
    let data ← lift (decodeFirstAttachment session.sessionId msg state.ring.codec attachments)
    deliverForward state session msg next (.fromU64 nextAccount.acls) fromAccount data (delayMilli msg)
      (expiresAt state msg.expiresTime) ephemeral

end Routines

end AffinidiTdk.Routing
