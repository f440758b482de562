/-
Forward messages (`message/forward.rs`): an encrypted message is wrapped for the mediator on its way, which is to take
it out again. The wrapped message has its attachment among the extra headers and is looked up there; on the wire the
same member is the typed field of the attachments, where nothing looks.
-/
import AffinidiTdk.Didcomm.PackUnpack
import AffinidiTdk.Didcomm.Sdk

namespace AffinidiTdk.Didcomm

open Fallible List

/-! ## Wrapping -/

def forwardBody (next : String) : Json := .obj [("next", .str next)]

/-- The attachments of a forward message, as JSON. -/
def forwardAttachments (inner : Json) : Json := .arr [.obj [("data", .obj [("json", inner)])]]

/-- `wrap_in_forward`; the id is drawn by `Message::new`. -/
def wrapInForward (reader : Json.Reader) (id next encryptedMsg : String) : Except DIDCommError Message := do
  let inner ← invalid "invalid encrypted message" (reader.parse encryptedMsg)
  return { id, typ := Sdk.forwardType, body := forwardBody next
           extra := [("attachments", forwardAttachments inner)] }

/-- `unwrap_forward`: the next DID and the text of the inner message. -/
def unwrapForward (msg : Message) : Except DIDCommError (String × String) := do
  if msg.typ ≠ Sdk.forwardType then
    throw (.invalidMessage s!"expected forward message, got: {msg.typ}")
  let next ← require (msg.body.index "next").asStr "missing 'next' in forward body"
  let attachments ← require ((msg.extra.lookup "attachments").bind Json.asArray) "missing attachments in forward"
  let inner ← require ((attachments.head?.bind (Json.get? "data")).bind (Json.get? "json"))
    "missing inner message in forward"
  return (next, inner.toText)

/-! ## The agent -/

/-- What packing reads of a resolved identity, or of the mediator of a route. -/
structure KeyHolder (Pub : Type) where
  did : String
  keyAgreementKid : String
  keyAgreementPublic : Pub

/-- The identities that an agent packs with, and the mediators of its recipients. -/
structure PackStore (Priv Pub : Type) where
  ownIdentities : List (PrivateIdentity Priv)
  resolved : List (KeyHolder Pub)
  routes : List (String × KeyHolder Pub)

namespace PackStore

variable {Priv Pub : Type} (store : PackStore Priv Pub)

def found {α : Type} (did : String) : Option α → Except DIDCommError α
  | some identity => .ok identity
  | none => .error (.identityNotFound did)

def getLocal (did : String) : Except DIDCommError (PrivateIdentity Priv) :=
  found did (store.ownIdentities.find? fun identity => identity.did = did)

def getResolved (did : String) : Except DIDCommError (KeyHolder Pub) :=
  found did (store.resolved.find? fun identity => identity.did = did)

def getRoute (did : String) : Option (KeyHolder Pub) := store.routes.lookup did

variable {prims : Primitives Priv Pub} (reader : Json.Reader) (draws forwardDraws : Draws prims) (forwardId : String)

/-- The packed message, in a forward message for the mediator of the recipient where there is one. -/
def route (recipientDid packed : String) : Except DIDCommError String :=
  match store.getRoute recipientDid with
  | some mediator => do
    let forwardMsg ← wrapInForward reader forwardId recipientDid packed
    anoncrypt forwardDraws (utf8 forwardMsg.toJson.toText) [(mediator.keyAgreementKid, mediator.keyAgreementPublic)]
  | none => .ok packed

def packAuthcrypt (msg : Message) (senderDid recipientDid : String) : Except DIDCommError String := do
  let sender ← store.getLocal senderDid
  let recipient ← store.getResolved recipientDid
  let packed ← packEncryptedAuthcrypt draws msg sender.keyAgreementKid sender.keyAgreementPrivate
    [(recipient.keyAgreementKid, recipient.keyAgreementPublic)]
  store.route reader forwardDraws forwardId recipientDid packed

end PackStore

def UnpackResult.message : UnpackResult → Message
  | .encrypted message _ _ _ _ _ _ | .signed message _ | .plaintext message => message

/-! ## What is promised -/

/-- A forward message is written, read again from its bytes and unwrapped: the next DID and the same inner value come
out. -/
def ForwardComesBack (reader : Json.Reader) (others : Codec) (id next encryptedMsg : String) : Prop :=
  ∃ msg copy inner text, wrapInForward reader id next encryptedMsg = .ok msg ∧
    messageFromJson (wireCodec reader others) (utf8 msg.toJson.toText) = .ok copy ∧
    unwrapForward copy = .ok (next, text) ∧ reader.parse encryptedMsg = .ok inner ∧ reader.parse text = .ok inner

/-- The agent of a mediator, with the decoders of the crate. -/
def mediatorAgent {Priv Pub Kek : Type} (reader : Json.Reader) (others : Codec) (crypto : Crypto Priv Pub Kek)
    (verify : String → Bytes → Except DIDCommError VerifiedJws) (identities : DIDCommStore Priv Pub) :
    DIDCommAgent Priv Pub Kek :=
  ⟨wireCodec reader others, crypto, verify, identities⟩

/-- What was packed for a recipient behind a mediator is unpacked by that mediator and unwrapped. -/
def MediatorUnwraps {Priv Pub Kek : Type} (mediator : DIDCommAgent Priv Pub Kek) (store : PackStore Priv Pub)
    (packed : Except DIDCommError String) (recipientDid : String) : Prop :=
  ∃ envelope result inner, packed = .ok envelope ∧ (store.getRoute recipientDid).isSome ∧
    mediator.unpack envelope none = .ok result ∧ unwrapForward result.message = .ok (recipientDid, inner)

/-! ## In memory -/

section

variable {reader : Json.Reader} {others : Codec} {id next encryptedMsg : String} {msg : Message} {inner : Json}

theorem wrapInForward_eq_ok_iff : wrapInForward reader id next encryptedMsg = .ok msg ↔
    ∃ inner, reader.parse encryptedMsg = .ok inner ∧
      msg = { id, typ := Sdk.forwardType, body := forwardBody next
              extra := [("attachments", forwardAttachments inner)] } := by
  unfold wrapInForward
  rw [bind_eq_ok_iff]
  constructor
  · rintro ⟨inner, hinner, hmsg⟩
    exact ⟨inner, invalid_eq_ok_iff.1 hinner, (pure_eq_ok_iff.1 hmsg).symm⟩
  · rintro ⟨inner, hinner, rfl⟩
    exact ⟨inner, invalid_eq_ok_iff.2 hinner, rfl⟩

/-! ## On the wire -/

/-- The message that the wire has: its attachment is the typed one. -/
def typedForward (id next : String) (inner : Json) : Message :=
  { id, typ := Sdk.forwardType, body := forwardBody next, attachments := some [{ json := some inner }] }

theorem toJson_wrapped (h : wrapInForward reader id next encryptedMsg = .ok msg)
    (hinner : reader.parse encryptedMsg = .ok inner) : msg.toJson = (typedForward id next inner).toJson := by
  obtain ⟨other, hother, rfl⟩ := wrapInForward_eq_ok_iff.1 h
  cases hother.symm.trans hinner
  rfl

theorem typedForward_wellTyped {isFloat : String → Prop} (hinner : inner.Valid isFloat) :
    (typedForward id next inner).WellTyped isFloat where
  body := ⟨nodup_singleton _, trivial, trivial⟩
  createdTime := by rintro _ ⟨⟩
  expiresTime := by rintro _ ⟨⟩
  attachments := by
    intro attachments hattachments attachment hattachment
    cases hattachments
    obtain rfl := mem_singleton.1 hattachment
    refine ⟨by rintro _ ⟨⟩, by rintro _ ⟨⟩, fun value hvalue => ?_⟩
    cases hvalue
    exact hinner
  extra := by rintro _ ⟨⟩
  names := nodup_nil

theorem typedForward_separate : (typedForward id next inner).Separate := by
  rintro _ ⟨⟩

theorem messageFromJson_wrapped {limit : ℕ} (hreader : reader.Lawful limit)
    (h : wrapInForward reader id next encryptedMsg = .ok msg) (hinner : reader.parse encryptedMsg = .ok inner)
    (hvalid : inner.Valid reader.isFloat) (hnesting : msg.toJson.nesting ≤ limit) :
    messageFromJson (wireCodec reader others) (utf8 msg.toJson.toText) =
      .ok ((typedForward id next inner).reread reader.reread) := by
  have hwell : (typedForward id next inner).WellTyped reader.isFloat := typedForward_wellTyped hvalid
  have hread := Message.ofJson_toJson (f := reader.reread) hwell typedForward_separate
  rw [toJson_wrapped h hinner] at hnesting ⊢
  have hparse := hreader.parse_toText (hwell.valid typedForward_separate) hnesting
  refine invalid_eq_ok_iff.2 (bind_eq_ok_iff.2 ⟨_, ?_, hread⟩)
  rw [fromSlice, fromUtf8_utf8]
  exact hparse

theorem Message.lookup_extra_ofJson {value : Json} (h : Message.ofJson value = .ok msg) {name : String}
    (hname : name ∈ fieldNames) : msg.extra.lookup name = none := by
  unfold Message.ofJson at h
  simp only [bind_eq_ok_iff, pure_eq_ok_iff] at h
  obtain ⟨_, _, _, _, _, _, _, _, _, _, _, _, _, _, _, _, _, _, _, _, rfl⟩ := h
  refine lookup_eq_none_iff.2 fun header hheader => bne_iff_ne.2 ?_
  rintro rfl
  exact of_decide_eq_true (mem_filter.1 hheader).2 hname

theorem unwrapForward_ne_ok (h : msg.extra.lookup "attachments" = none) (r : String × String) :
    unwrapForward msg ≠ .ok r := by
  intro hok
  unfold unwrapForward at hok
  rw [h] at hok
  split at hok
  · cases hok
  · obtain ⟨_, -, hok⟩ := bind_eq_ok_iff.1 hok
    obtain ⟨_, hattachments, -⟩ := bind_eq_ok_iff.1 hok
    cases hattachments

theorem unwrapForward_fromJson {bytes : Bytes}
    (h : messageFromJson (wireCodec reader others) bytes = .ok msg) (r : String × String) :
    unwrapForward msg ≠ .ok r := by
  obtain ⟨value, -, hvalue⟩ := bind_eq_ok_iff.1 (invalid_eq_ok_iff.1 h)
  exact unwrapForward_ne_ok (Message.lookup_extra_ofJson hvalue (by decide)) r

/-! ## The mediator -/

variable {Priv Pub Kek : Type} {codec : Codec} {crypto : Crypto Priv Pub Kek}
  {verify : String → Bytes → Except DIDCommError VerifiedJws} {result : UnpackResult}

theorem openPayload_fromJson {decrypted : DecryptedJwe} {signerPublic : Option Bytes}
    (h : openPayload codec verify decrypted signerPublic = .ok result) :
    ∃ bytes, messageFromJson codec bytes = .ok result.message := by
  unfold openPayload at h
  split at h
  · simp only [bind_eq_ok_iff, pure_eq_ok_iff] at h
    obtain ⟨_, _, _, _, verified, _, message, hmessage, rfl⟩ := h
    exact ⟨verified.payload, hmessage⟩
  · simp only [bind_eq_ok_iff, pure_eq_ok_iff] at h
    obtain ⟨message, hmessage, rfl⟩ := h
    exact ⟨decrypted.plaintext, hmessage⟩

theorem unpack_fromJson {input : String} {recipientKid : Option String} {recipientPrivate : Option Priv}
    {senderPublic : Option Pub} {signerPublic : Option Bytes}
    (h : unpack codec crypto verify input recipientKid recipientPrivate senderPublic signerPublic = .ok result) :
    ∃ bytes, messageFromJson codec bytes = .ok result.message := by
  unfold unpack at h
  obtain ⟨value, -, h⟩ := bind_eq_ok_iff.1 h
  split at h
  · simp only [bind_eq_ok_iff] at h
    obtain ⟨_, -, _, -, decrypted, -, hopen⟩ := h
    exact openPayload_fromJson hopen
  · split at h
    · simp only [bind_eq_ok_iff, pure_eq_ok_iff] at h
      obtain ⟨_, -, verified, -, message, hmessage, rfl⟩ := h
      exact ⟨verified.payload, hmessage⟩
    · split at h
      · simp only [bind_eq_ok_iff, pure_eq_ok_iff] at h
        obtain ⟨message, hmessage, rfl⟩ := h
        exact ⟨utf8 input, hmessage⟩
      · cases h

theorem DIDCommAgent.unpack_fromJson {agent : DIDCommAgent Priv Pub Kek} {input : String} {senderDid : Option String}
    (h : agent.unpack input senderDid = .ok result) :
    ∃ bytes, messageFromJson agent.codec bytes = .ok result.message := by
  unfold DIDCommAgent.unpack at h
  obtain ⟨value, -, h⟩ := bind_eq_ok_iff.1 h
  split at h
  · obtain ⟨_, -, h⟩ := bind_eq_ok_iff.1 h
    obtain ⟨_, -, h⟩ := bind_eq_ok_iff.1 h
    split at h
    · exact Didcomm.unpack_fromJson h
    · cases h
  · split at h
    · obtain ⟨_, -, h⟩ := bind_eq_ok_iff.1 h
      obtain ⟨_, -, h⟩ := bind_eq_ok_iff.1 h
      split at h
      · exact Didcomm.unpack_fromJson h
      · cases h
    · exact Didcomm.unpack_fromJson h

/-- No forward message comes back from the wire, and no mediator takes one out of what was packed over a route. -/
theorem forward_lost (reader : Json.Reader) (others : Codec) (id next encryptedMsg : String)
    {prims : Primitives Priv Pub} (crypto : Crypto Priv Pub Kek)
    (verify : String → Bytes → Except DIDCommError VerifiedJws) (identities : DIDCommStore Priv Pub)
    (store : PackStore Priv Pub) (draws forwardDraws : Draws prims) (message : Message)
    (senderDid recipientDid : String) :
    ¬ForwardComesBack reader others id next encryptedMsg ∧
      ¬MediatorUnwraps (mediatorAgent reader others crypto verify identities) store
        (store.packAuthcrypt reader draws forwardDraws id message senderDid recipientDid) recipientDid := by
  constructor
  · rintro ⟨msg, copy, inner, text, -, hcopy, hunwrap, -⟩
    exact unwrapForward_fromJson hcopy (next, text) hunwrap
  · rintro ⟨envelope, result, inner, -, -, hresult, hunwrap⟩
    obtain ⟨bytes, hmessage⟩ := DIDCommAgent.unpack_fromJson hresult
    exact unwrapForward_fromJson hmessage (recipientDid, inner) hunwrap

end

/-! ## A message for Bob over a mediator -/

namespace Greeting

theorem parse_empty : Json.Compact.reader.parse "{}" = .ok (.obj []) := by decide +kernel

end Greeting

/-- An empty object is unwrapped in memory, and not from the wire, where the message has it all the same. -/
theorem empty_not_unwrapped : ∃ msg copy, wrapInForward Json.Compact.reader "1" "did:x:bob" "{}" = .ok msg ∧
    unwrapForward msg = .ok ("did:x:bob", "{}") ∧
    messageFromJson (wireCodec Json.Compact.reader Greeting.others) (utf8 msg.toJson.toText) = .ok copy ∧
    copy.attachments = some [{ json := some (.obj []) }] ∧
    unwrapForward copy = .error (.invalidMessage "missing attachments in forward") ∧
    ¬ForwardComesBack Json.Compact.reader Greeting.others "1" "did:x:bob" "{}" := by
  have hwrap : wrapInForward Json.Compact.reader "1" "did:x:bob" "{}" = _ :=
    wrapInForward_eq_ok_iff.2 ⟨_, Greeting.parse_empty, rfl⟩
  have hread : messageFromJson (wireCodec Json.Compact.reader Greeting.others) _ = _ :=
    messageFromJson_wrapped Json.Compact.reader_lawful hwrap Greeting.parse_empty ⟨nodup_nil, trivial⟩
      (by decide +kernel)
  refine ⟨_, _, hwrap, rfl, hread, rfl, rfl, ?_⟩
  rintro ⟨msg, copy, inner, text, hmsg, hcopy, hunwrap, -⟩
  cases hwrap.symm.trans hmsg
  cases hread.symm.trans hcopy
  cases hunwrap

end AffinidiTdk.Didcomm
