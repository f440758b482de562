/-
The DIDComm ingress (`messages/inbound.rs` `handle_inbound_didcomm`, `messages/mod.rs`,
`messages/store.rs` `store_message`): an inbound text is opened if it is for the mediator, its
sender key is compared with the session's DID, and the message in it goes to its protocol; a text
for somebody else is delivered as it is. The protocols other than routing and the packing of their
answers are parameters.
-/
import AffinidiTdk.Routing.Forward

namespace AffinidiTdk.Routing

open Acl Store Didcomm Program

/-! ## Answers -/

/-- What a protocol hands back to be stored. -/
inductive WrapperType
  | envelope (toDid message : String) (expiresAt : ℕ)
  | message (message : Message)
  | none

/-- What a handler asks to be done with the message. -/
structure ProcessMessageResponse where
  storeMessage : Bool := false
  forwardMessage : Bool := false
  data : WrapperType := .none

/-- The answer to the client: per recipient the id of a stored message, or an error. -/
inductive InboundMessageResponse
  | stored (messages errors : List (String × String))
  | ephemeral (packed : String)
  | forwarded

/-- The parts of the mediator that are not about forwards. -/
structure Protocols where
  process : Session → Message → UnpackMetadata → Routine ProcessMessageResponse
  pack : Session → Message → String → UnpackMetadata → Except MediatorError String

/-! ## Storing an answer -/

section Routines

variable {Priv Pub Kek : Type} (state : SharedData Priv Pub Kek) (protocols : Protocols) (session : Session)

/-- The outcome of one store, put on its list. -/
def InboundMessageResponse.record (recipient : String) (outcome : Except MediatorError String)
    (stored : List (String × String) × List (String × String)) : List (String × String) × List (String × String) :=
  match outcome with
  | .ok msgId => (stored.1 ++ [(recipient, msgId)], stored.2)
  | .error e => (stored.1, stored.2 ++ [(recipient, e.display)])

/-- The message packed and stored for each recipient in turn. -/
def storeForRecipients (message : Message) (metadata : UnpackMetadata) (expires : ℕ) :
    List String → List (String × String) × List (String × String) → Routine InboundMessageResponse
  | [], stored => pure (.stored stored.1 stored.2)
  | recipient :: rest, stored => do
    let packed ← lift (protocols.pack session message recipient metadata)
    let outcome ← attempt
      (.storeMessage packed (state.digest recipient) (some state.config.mediatorDidHash) expires)
    storeForRecipients message metadata expires rest (InboundMessageResponse.record recipient outcome stored)

/-- A packed message stored as it is, under the session's DID. -/
def storeEnvelope (toDid message : String) (expires : ℕ) : Routine InboundMessageResponse := do
  let outcome ← attempt (.storeMessage message (state.digest toDid) (some session.didHash) expires)
  let stored := InboundMessageResponse.record toDid outcome ([], [])
  pure (.stored stored.1 stored.2)

def noRecipients (message : Message) : MediatorError :=
  .problem 75 session.sessionId (some message.id) .error .protocol "message.recipients.missing"
    "Message has no recipients" [] 500

def tooManyRecipients (message : Message) (count : ℕ) : MediatorError :=
  .problemWithLog 76 session.sessionId (some message.id) .error .protocol "message.recipients.too_many"
    "Message has too many recipients (\x7b1\x7d). Max: \x7b2\x7d"
    [toString count, toString state.config.limits.toRecipients] 500
    s!"Message has too many recipients ({count}). Max: {state.config.limits.toRecipients}"

def ProcessMessageResponse.store (response : ProcessMessageResponse) (metadata : UnpackMetadata) :
    Routine InboundMessageResponse :=
  if response.forwardMessage then pure .forwarded
  else if response.storeMessage then
    match response.data with
    | .none => pure (.stored [] [])
    | .message message =>
      match message.toDids with
      | none => fail (noRecipients session message)
      | some toDids =>
        if toDids.length > state.config.limits.toRecipients then
          fail (tooManyRecipients state session message toDids.length)
        else storeForRecipients state protocols session message metadata (expiresAt state message.expiresTime)
          toDids ([], [])
    | .envelope toDid message expires => storeEnvelope state session toDid message expires
  else
    match response.data with
    | .message message => do
      let packed ← lift (protocols.pack session message session.did metadata)
      pure (.ephemeral packed)
    | _ => fail (.problem 77 session.sessionId none .error .protocol "me.storage.message.error"
        "Expected a message to store, instead got None" [] 500)

/-! ## A message for the mediator -/

def splitOnceHash (kid : String) : Option (String × String) :=
  let did := kid.toList.takeWhile (· ≠ '#')
  if '#' ∈ kid.toList then some (String.ofList did, String.ofList (kid.toList.drop (did.length + 1))) else none

def sessionMismatch (msgId : Option String) (sender log : String) : MediatorError :=
  .problemWithLog 52 session.sessionId msgId .error .protocol "authorization.did.session_mismatch"
    "Sender DID (\x7b1\x7d) doesn't match session DID" [sender] 400 log

/-- The DID of the sender's key id must be the session's. -/
def checkSessionSenderMatch (msgId : String) (senderKid : Option String) : Except MediatorError Unit :=
  if (senderKid.bind splitOnceHash).any (fun parts => parts.1 = session.did) then .ok ()
  else
    let sender := senderKid.getD "anonymous"
    .error (sessionMismatch session (some msgId) sender s!"Sender DID ({sender}) doesn't match session DID")

def messageExpired (msg : Message) (expires : ℕ) : MediatorError :=
  .problemWithLog 31 session.sessionId (some msg.id) .error .protocol "message.expired"
    "Message has expired: \x7b1\x7d" [toString expires] 400 "Message has expired"

/-- `Message::process`: an expired message is refused, a forward is routed, the rest is for the
other protocols. -/
def processMessage (msg : Message) (metadata : UnpackMetadata) : Routine ProcessMessageResponse :=
  if msg.expiresTime.any (· ≤ state.unixSecs) then fail (messageExpired session msg (msg.expiresTime.getD 0))
  else if msg.typ = Sdk.forwardType then do
    process state session msg
    pure { forwardMessage := true }
  else protocols.process session msg metadata

def anonymousMessage (msgId : Option String) (comment : String) (status : ℕ) : MediatorError :=
  .problem 50 session.sessionId msgId .warning .message "message.anonymous" comment [] status

/-- The checks on a message opened by the mediator. -/
def admitMessage (msg : Message) (metadata : UnpackMetadata) : Except MediatorError Unit :=
  if !metadata.authenticated && metadata.signFrom.isNone && state.config.security.blockAnonymousOuterEnvelope then
    .error (anonymousMessage session (some msg.id)
      "Mediator is not allowing anonymous messages (no authcrypt or JWS signature)" 400)
  else if state.config.security.forceSessionDidMatch && session.authenticated then
    checkSessionSenderMatch session msg.id (metadata.signFrom.or metadata.encryptedFromKid)
  else .ok ()

def receiveMessage (msg : Message) (metadata : UnpackMetadata) : Routine InboundMessageResponse := do
  lift (admitMessage state session msg metadata)
  let response ← processMessage state protocols session msg metadata
  response.store state protocols session metadata

/-! ## Direct delivery -/

/-- The sender's side of a direct delivery. -/
def admitSender (sender : Option String) : Routine Unit :=
  match sender with
  | some sender => do
    let acls ← perform (.getDidAcl (state.digest sender))
    if !grants (acls.getD state.config.security.globalAclDefault) .sendMessages then
      fail (.problem 44 session.sessionId none .error .protocol "authorization.send"
        "Sender DID is not authorized to send messages through this mediator" [] 403)
    else pure ()
  | none =>
    if !state.config.security.localDirectDeliveryAllowAnon then
      fail (anonymousMessage session none "Anonymous direct delivery is not allowed by this mediator" 403)
    else pure ()

def deliverDirect (envelope : MetaEnvelope) (message toDid : String) : Routine InboundMessageResponse := do
  if !state.config.security.localDirectDeliveryAllowed then
    fail (.problem 71 session.sessionId none .warning .message "direct_delivery.denied"
      ("Mediator is not accepting direct delivery of DIDComm messages. " ++
        "They must be wrapped in a forwarding envelope") [] 403)
  if !(← perform (.accountExists (state.digest toDid))) then
    fail (.problem 72 session.sessionId none .warning .message "direct_delivery.recipient.unknown"
      "Direct Delivery Recipient is not known on this Mediator" [] 403)
  if state.config.security.forceSessionDidMatch && envelope.fromDid ≠ some session.did then
    let claimed := envelope.fromDid.getD "anonymous"
    fail (sessionMismatch session none claimed
      s!"Direct-delivery envelope sender ({claimed}) doesn't match session DID")
  admitSender state session envelope.fromDid
  let allowed ← attempt (.accessListAllowed (state.digest toDid) (envelope.fromDid.map state.digest))
  if !(allowed.toOption.getD false) then
    fail (.problem 73 session.sessionId none .error .protocol "authorization.access_list.denied"
      "Delivery blocked due to ACLs (access_list denied)" [] 403)
  let response : ProcessMessageResponse :=
    { storeMessage := true
      data := .envelope toDid message (state.unixSecs + state.config.limits.messageExpirySeconds) }
  response.store state protocols session {}

/-! ## The handler -/

/-- The text the handler works on: in re-wrap mode without its relay layers. -/
def arriving (message : String) : Except MediatorError String :=
  match state.config.forwarding.relayMode with
  | .rewrap =>
    (peelRelayRewrapLayers state.ring state.config.forwarding state.config.mediatorDid session.sessionId message).2
  | .blind => .ok message

def readEnvelope (message : String) : Except MediatorError MetaEnvelope :=
  (MetaEnvelope.new state.ring message).mapError fun e =>
    .problemWithLog 37 session.sessionId none .error .protocol "message.envelope.read"
      "Couldn't read DIDComm envelope: \x7b1\x7d" [e] 400 s!"Couldn't read DIDComm envelope: {e}"

def unpackEnvelope (message : String) (envelope : MetaEnvelope) : Except MediatorError (Message × UnpackMetadata) :=
  (MetaEnvelope.unpack state.ring envelope).mapError fun e =>
    .problemWithLog 32 session.sessionId none .error .protocol "message.unpack"
      "Message unpack failed: envelope \x7b1\x7d Reason: \x7b2\x7d" [message, e] 403
      s!"Message unpack failed. Reason: {e}"

def handleInboundDidcomm (text : String) : Routine InboundMessageResponse := do
  let message ← lift (arriving state session text)
  let envelope ← lift (readEnvelope state session message)
  match envelope.toDid with
  | none => fail (.problemWithLog 51 session.sessionId none .error .protocol "message.to"
      "There is no to_did on the envelope! Can't deliver an unknown message. Message: \x7b1\x7d" [message] 422
      "There is no to_did on the envelope! Can't deliver an unknown message.")
  | some toDid =>
    if toDid = state.config.mediatorDid then do
      let (msg, metadata) ← lift (unpackEnvelope state session message envelope)
      receiveMessage state protocols session msg metadata
    else deliverDirect state protocols session envelope message toDid

/-- What the mediator finds in a text that is for it. -/
def opened (text : String) : Option (Message × UnpackMetadata) := do
  let message ← (arriving state session text).toOption
  let envelope ← (MetaEnvelope.new state.ring message).toOption
  if envelope.toDid = some state.config.mediatorDid then (MetaEnvelope.unpack state.ring envelope).toOption
  else none

end Routines

end AffinidiTdk.Routing
