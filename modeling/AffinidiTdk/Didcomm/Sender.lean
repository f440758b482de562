/-
Who an authenticated envelope is from. The key that opens it is looked up by the header's `skid`,
the sender is reported from its `apu`, and nothing compares the two: the reported sender owns the
key exactly where the two headers name one DID. The key agreement is symbolic here: ECDH-1PU is an
injective function of everything that goes into it, and a party derives only keys with itself.
-/
import AffinidiTdk.Didcomm.Sdk

namespace AffinidiTdk.Didcomm

open Option

/-! ## Symbolic keys -/

section

variable {Priv Pub Kek : Type}

/-- What the two static keys, the ephemeral key and the three parameters of a key derivation are. -/
structure Agreement (Pub : Type) where
  legacy : Bool
  sender : Pub
  recipient : Pub
  epk : Pub
  apu : Bytes
  apv : Bytes
  tag : Bytes
  deriving DecidableEq

/-- ECDH-1PU as an injective function of the parties' keys and the parameters. -/
structure SymbolicKeys (crypto : Crypto Priv Pub Kek) where
  publicOf : Priv → Pub
  agree : Agreement Pub → Kek
  agree_injective : agree.Injective
  derive_eq : ∀ priv sender epk apu apv tag,
    crypto.deriveKey1puRecipient priv sender epk "ECDH-1PU+A256KW" apu apv tag =
      .ok (agree ⟨false, sender, publicOf priv, epk, apu, apv, tag⟩)
  deriveLegacy_eq : ∀ priv sender epk apu apv tag,
    crypto.deriveKey1puRecipientLegacy priv sender epk "ECDH-1PU+A256KW" apu apv tag =
      .ok (agree ⟨true, sender, publicOf priv, epk, apu, apv, tag⟩)

variable {codec : Codec} {crypto : Crypto Priv Pub Kek} (keys : SymbolicKeys crypto)

/-- The key encryption keys of a party that holds one private key: the ECDH-1PU keys it is a side
of, and whatever is no ECDH-1PU key. -/
def Derivable (own : Priv) (kek : Kek) : Prop :=
  (∃ a, kek = keys.agree a ∧ (a.sender = keys.publicOf own ∨ a.recipient = keys.publicOf own)) ∨
  ∀ a, kek ≠ keys.agree a

/-- A text of a party that holds one private key: what opens a wrapped key of it, the party could
derive. -/
def MadeBy (codec : Codec) (text : String) (own : Priv) : Prop :=
  ∀ kid wrapped kek cek, wrappedKey codec text kid = some wrapped → crypto.unwrap kek wrapped = .ok cek →
    Derivable keys own kek

/-- A text that opens with the key `pub` for somebody else was made with `pub`'s private key. -/
def OnlyFromOwner (codec : Codec) (text : String) (priv : Priv) (pub : Pub) : Prop :=
  ∀ own, MadeBy keys codec text own → keys.publicOf priv ≠ keys.publicOf own → pub = keys.publicOf own

theorem Derives1pu.eq_agree {priv : Priv} {sender epk : Pub} {apu apv tag : Bytes} {kek : Kek}
    (h : Derives1pu crypto priv sender epk apu apv tag kek) :
    ∃ legacy, kek = keys.agree ⟨legacy, sender, keys.publicOf priv, epk, apu, apv, tag⟩ := by
  rcases h with h | h
  · rw [keys.derive_eq] at h
    exact ⟨false, (Except.ok.inj h).symm⟩
  · rw [keys.deriveLegacy_eq] at h
    exact ⟨true, (Except.ok.inj h).symm⟩

theorem OpensWith.onlyFromOwner {text kid : String} {priv : Priv} {pub : Pub}
    (h : OpensWith codec crypto text kid priv pub) : OnlyFromOwner keys codec text priv pub := by
  obtain ⟨epk, apu, apv, tag, kek, wrapped, cek, hderives, hwrapped, hcek⟩ := h
  obtain ⟨legacy, rfl⟩ := hderives.eq_agree keys
  intro own hmade hne
  rcases hmade kid wrapped _ cek hwrapped hcek with ⟨a, ha, hside⟩ | hnone
  · obtain rfl := keys.agree_injective ha
    rcases hside with hside | hside
    · exact hside
    · exact absurd hside hne
  · exact absurd rfl (hnone _)

end

/-! ## The two headers -/

/-- The headers name one sender: where there is a `skid`, `apu` is text and has its DID. -/
def HeadersAgree (codec : Codec) (header : Json) : Prop :=
  ∀ skid, header.strField "skid" = some skid → (apuKid codec header).map didOf = some (didOf skid)

theorem headersAgree_of_skid {codec : Codec} {header : Json} {skid : String}
    (h : header.strField "skid" = some skid) :
    HeadersAgree codec header ↔ (apuKid codec header).map didOf = some (didOf skid) := by
  simp [HeadersAgree, h]

section

variable {Priv Pub Kek : Type}

/-- The adapter's verified message: the sender it reports is the DID whose stored key opened the
envelope exactly where the headers agree, or `apu` is no text and the sealed `from` is that DID. -/
def AdapterReportsOwner (agent : DIDCommAgent Priv Pub Kek) (keys : SymbolicKeys agent.crypto) (input : String)
    (r : ReceivedMessage) : Prop :=
  ∃ header did identity kid priv message,
    headerValue agent.codec input = some header ∧ agent.detectSender input = some did ∧
    agent.store.getResolved did = .ok identity ∧
    OpensWith agent.codec agent.crypto input kid priv identity.keyAgreementPublic ∧
    OnlyFromOwner keys agent.codec input priv identity.keyAgreementPublic ∧
    agent.sealedMessage input kid priv identity.keyAgreementPublic = some message ∧
    (r.sender = some did ↔
      HeadersAgree agent.codec header ∨ apuKid agent.codec header = none ∧ message.sender = some did)

/-- The mediator's authenticated text: the DID part of the key id it reports is the DID whose
resolved key opened the envelope exactly where the headers agree. -/
def MediatorReportsOwner (ring : Keyring Priv Pub Kek) (keys : SymbolicKeys ring.crypto) (message : String)
    (metadata : UnpackMetadata) : Prop :=
  ∃ header did pub kid priv,
    headerValue ring.codec message = some header ∧ MetaEnvelope.senderOf ring header = some did ∧
    ring.resolveDidKeyAgreement did = some pub ∧ OpensWith ring.codec ring.crypto message kid priv pub ∧
    OnlyFromOwner keys ring.codec message priv pub ∧
    (metadata.encryptedFromKid.map didOf = some did ↔ HeadersAgree ring.codec header)

/-- The same for the SDK, about the innermost text that its loop reaches. -/
def SdkReportsOwner (ring : Keyring Priv Pub Kek) (keys : SymbolicKeys ring.crypto) (config : ATMConfig)
    (message : String) (metadata : UnpackMetadata) : Prop :=
  ∃ text header skid pub kid priv,
    Relation.ReflTransGen (Sdk.Carries ring config) message text ∧
    headerValue ring.codec text = some header ∧ header.strField "skid" = some skid ∧
    Sdk.resolveSkid ring skid = some pub ∧ OpensWith ring.codec ring.crypto text kid priv pub ∧
    OnlyFromOwner keys ring.codec text priv pub ∧
    (metadata.encryptedFromKid.map didOf = some (didOf skid) ↔ HeadersAgree ring.codec header)

/-! ## The three paths -/

variable {agent : DIDCommAgent Priv Pub Kek}

theorem DIDCommAgent.detectSender_eq_some {input did : String} {header : Json}
    (hheader : headerValue agent.codec input = some header) (h : agent.detectSender input = some did) :
    ∃ skid, header.strField "skid" = some skid ∧ did = didOf skid := by
  simp only [DIDCommAgent.detectSender, hheader, bind, bind_some, bind_eq_some_iff, pure, Option.some.injEq] at h
  obtain ⟨skid, hskid, rfl⟩ := h
  exact ⟨skid, hskid, rfl⟩

theorem adapter_reportsOwner (keys : SymbolicKeys agent.crypto) {packed : Bytes} {input : String} {value : Json}
    {r : ReceivedMessage} (hinput : fromUtf8 packed = some input) (hvalue : agent.codec.fromStr input = .ok value)
    (hjwe : isJwe value = true) (h : agent.adapterUnpack packed = .ok r) (hv : r.verified = true) :
    AdapterReportsOwner agent keys input r := by
  obtain ⟨header, did, identity, kid, priv, message, hheader, hdid, hidentity, -, hopens, hsealed, hsender⟩ :=
    DIDCommAgent.adapterUnpack_verified hinput hvalue hjwe h hv
  refine ⟨header, did, identity, kid, priv, message, hheader, hdid, hidentity, hopens, hopens.onlyFromOwner keys,
    hsealed, ?_⟩
  obtain ⟨skid, hskid, rfl⟩ := DIDCommAgent.detectSender_eq_some hheader hdid
  rw [hsender, headersAgree_of_skid hskid]
  cases apuKid agent.codec header with
  | none => simp
  | some kid => simp

variable {ring : Keyring Priv Pub Kek}

theorem senderOf_eq_some {header : Json} {did : String} (h : MetaEnvelope.senderOf ring header = some did) :
    (apuKid ring.codec header).map didOf = some did ↔ HeadersAgree ring.codec header := by
  unfold MetaEnvelope.senderOf at h
  cases hskid : header.strField "skid" with
  | some skid =>
    rw [hskid] at h
    cases h
    exact (headersAgree_of_skid hskid).symm
  | none =>
    rw [hskid] at h
    simp only [bind, bind_eq_some_iff] at h
    obtain ⟨apu, hapu, bytes, hbytes, text, htext, h⟩ := h
    split at h
    · cases h
      simp [apuKid, hapu, hbytes, htext, HeadersAgree, hskid]
    · cases h

variable {message : String} {metadata : UnpackMetadata}

theorem mediator_reportsOwner (keys : SymbolicKeys ring.crypto) {envelope : MetaEnvelope} {msg : Message}
    (hnew : MetaEnvelope.new ring message = .ok envelope)
    (h : MetaEnvelope.unpack ring envelope = .ok (msg, metadata)) (ha : metadata.authenticated = true) :
    MediatorReportsOwner ring keys message metadata := by
  obtain ⟨header, did, pub, recipients, kid, priv, hheader, -, hdid, hpub, -, hopens, hfrom⟩ :=
    MetaEnvelope.authenticated_spec hnew h ha
  refine ⟨header, did, pub, kid, priv, hheader, hdid, hpub, hopens, hopens.onlyFromOwner keys, ?_⟩
  rw [hfrom]
  exact senderOf_eq_some hdid

theorem sdk_reportsOwner (keys : SymbolicKeys ring.crypto) {config : ATMConfig} {msg : Message}
    (h : Sdk.unpack ring config message = .ok (msg, metadata)) (ha : metadata.authenticated = true) :
    SdkReportsOwner ring keys config message metadata := by
  obtain ⟨text, header, skid, pub, recipients, kid, priv, hreach, hheader, hskid, hpub, -, hopens, hfrom⟩ :=
    Sdk.authenticated_spec h ha
  refine ⟨text, header, skid, pub, kid, priv, hreach, hheader, hskid, hpub, hopens, hopens.onlyFromOwner keys, ?_⟩
  rw [hfrom]
  exact (headersAgree_of_skid hskid).symm

/-- On each path, whenever a text is reported as authenticated: it opened with the key of a looked
up DID, nobody but the holder of that key can have made it, and that DID is the reported sender
exactly where the text's headers agree. -/
theorem reported_sender_owns_key_iff :
    (∀ (agent : DIDCommAgent Priv Pub Kek) (keys : SymbolicKeys agent.crypto) (packed : Bytes) (input : String)
      (value : Json) (r : ReceivedMessage), fromUtf8 packed = some input → agent.codec.fromStr input = .ok value →
      isJwe value = true → agent.adapterUnpack packed = .ok r → r.verified = true →
      AdapterReportsOwner agent keys input r) ∧
    (∀ (ring : Keyring Priv Pub Kek) (keys : SymbolicKeys ring.crypto) (message : String)
      (envelope : MetaEnvelope) (msg : Message) (metadata : UnpackMetadata),
      MetaEnvelope.new ring message = .ok envelope → MetaEnvelope.unpack ring envelope = .ok (msg, metadata) →
      metadata.authenticated = true → MediatorReportsOwner ring keys message metadata) ∧
    ∀ (ring : Keyring Priv Pub Kek) (keys : SymbolicKeys ring.crypto) (config : ATMConfig) (message : String)
      (msg : Message) (metadata : UnpackMetadata),
      Sdk.unpack ring config message = .ok (msg, metadata) → metadata.authenticated = true →
      SdkReportsOwner ring keys config message metadata := by
  refine ⟨?_, ?_, ?_⟩
  · intro agent keys packed input value r hinput hvalue hjwe h hv
    exact adapter_reportsOwner keys hinput hvalue hjwe h hv
  · intro ring keys message envelope msg metadata hnew h ha
    exact mediator_reportsOwner keys hnew h ha
  · intro ring keys config message msg metadata h ha
    exact sdk_reportsOwner keys h ha

end

/-! ## A forged sender

Mallory's envelope for Bob: wrapped with Mallory's key under Mallory's `skid`, with Alice's key id
as `apu`. -/

namespace Forged

open Fallible

def header : Json :=
  .obj [("alg", .str "ECDH-1PU+A256KW"), ("enc", .str "A256CBC-HS512"), ("skid", .str "did:x:mallory#1"),
    ("apu", .str "ZGlkOng6YWxpY2UjMQ"), ("apv", .str "ZGlkOng6Ym9iIzE"), ("epk", .obj [("x", .str "epk")])]

def headerText : String :=
  "\x7b\"alg\":\"ECDH-1PU+A256KW\",\"enc\":\"A256CBC-HS512\",\"skid\":\"did:x:mallory#1\"," ++
  "\"apu\":\"ZGlkOng6YWxpY2UjMQ\",\"apv\":\"ZGlkOng6Ym9iIzE\",\"epk\":\x7b\"x\":\"epk\"\x7d\x7d"

/-- The header in its transport form. -/
def headerB64 : String :=
  "eyJhbGciOiJFQ0RILTFQVStBMjU2S1ciLCJlbmMiOiJBMjU2Q0JDLUhTNTEyIiwic2tpZCI6ImRpZDp4Om1hbGxvcnkjMSIsImFwdSI6" ++
  "IlpHbGtPbmc2WVd4cFkyVWpNUSIsImFwdiI6IlpHbGtPbmc2WW05aUl6RSIsImVwayI6eyJ4IjoiZXBrIn19"

def jwe : Jwe :=
  ⟨headerB64, [⟨"did:x:bob#1", "AAAAAAAAAAA"⟩], "AAAAAAAAAAAAAAAAAAAAAA", "AAAAAAAAAAA",
    "AAAAAAAAAAAAAAAAAAAAAAAAAAAAAAAAAAAAAAAAAAA"⟩

def envelope : Json :=
  .obj [("protected", .str jwe.protectedHeader),
    ("recipients", .arr [.obj [("header", .obj [("kid", .str "did:x:bob#1")]),
      ("encrypted_key", .str "AAAAAAAAAAA")]]),
    ("iv", .str jwe.iv), ("ciphertext", .str jwe.ciphertext), ("tag", .str jwe.tag)]

def text : String :=
  "\x7b\"protected\":\"" ++ headerB64 ++ "\",\"recipients\":[\x7b\"header\":\x7b\"kid\":\"did:x:bob#1\"\x7d," ++
  "\"encrypted_key\":\"AAAAAAAAAAA\"\x7d],\"iv\":\"AAAAAAAAAAAAAAAAAAAAAA\",\"ciphertext\":\"AAAAAAAAAAA\"," ++
  "\"tag\":\"AAAAAAAAAAAAAAAAAAAAAAAAAAAAAAAAAAAAAAAAAAA\"\x7d"

/-- The sealed message; its `from` is left out. -/
def message : Message := { id := "m-1", typ := "ping", body := .null }

def sealedText : String := "\x7b\"id\":\"m-1\",\"type\":\"ping\",\"body\":null\x7d"

def codec : Codec where
  fromStr s := if s = text then .ok envelope else .error "expected value"
  fromSlice bytes :=
    if bytes = utf8 headerText then .ok header
    else if bytes = utf8 sealedText then .ok (.obj [("id", .str "m-1"), ("type", .str "ping"), ("body", .null)])
    else .error "expected value"
  toStr _ := .ok "null"
  message bytes := if bytes = utf8 sealedText then .ok message else .error "expected value"
  base64 s :=
    if s = "ZGlkOng6YWxpY2UjMQ" then .ok (utf8 "did:x:alice#1")
    else if s = "ZGlkOng6Ym9iIzE" then .ok (utf8 "did:x:bob#1")
    else if s = "AAAAAAAAAAA" then .ok (List.replicate 8 0)
    else if s = "AAAAAAAAAAAAAAAAAAAAAA" then .ok (List.replicate 16 0)
    else if s = "AAAAAAAAAAAAAAAAAAAAAAAAAAAAAAAAAAAAAAAAAAA" then .ok (List.replicate 32 0)
    else if s = headerB64 then .ok (utf8 headerText)
    else .error "invalid encoding"
  base64Padded _ := .error "invalid encoding"
  sha256 s := s

/-- What Mallory wrapped the content key under. -/
def agreement : Agreement String :=
  ⟨false, "mallory", "bob", "epk", utf8 "did:x:alice#1", utf8 "did:x:bob#1", List.replicate 32 0⟩

/-- Keys are names; a wrapped key opens under the key it was wrapped with. -/
def crypto : Crypto String String (Agreement String) where
  publicFromJwk jwk := match jwk.strField "x" with
    | some x => .ok x
    | none => .error "missing x"
  deriveKey1puRecipient priv sender epk _ apu apv tag := .ok ⟨false, sender, priv, epk, apu, apv, tag⟩
  deriveKey1puRecipientLegacy priv sender epk _ apu apv tag := .ok ⟨true, sender, priv, epk, apu, apv, tag⟩
  deriveKeyEsRecipient _ _ _ _ _ := .error "unsupported"
  unwrap kek wrapped :=
    if kek = agreement ∧ wrapped = List.replicate 8 0 then .ok (List.replicate 64 0)
    else .error "integrity check failed"
  decrypt _ _ _ _ _ := .ok (utf8 sealedText)

def keys : SymbolicKeys crypto where
  publicOf priv := priv
  agree a := a
  agree_injective := fun _ _ h => h
  derive_eq _ _ _ _ _ _ := rfl
  deriveLegacy_eq _ _ _ _ _ _ := rfl

/-- Bob's agent, which knows Alice and Mallory. -/
def bob : DIDCommAgent String String (Agreement String) where
  codec := codec
  crypto := crypto
  verifyEd25519 _ _ := .error (.verification "bad signature")
  store := ⟨[⟨"did:x:bob", "did:x:bob#1", "bob"⟩],
    [⟨"did:x:alice", "alice", none⟩, ⟨"did:x:mallory", "mallory", none⟩]⟩

def document (kid key : String) : Document :=
  ⟨[.reference kid], [], [⟨kid, .obj [("publicKeyJwk", .obj [("x", .str key)])]⟩]⟩

/-- Bob as a mediator or through the SDK, with a resolver that knows Alice and Mallory. -/
def ring : Keyring String String (Agreement String) where
  codec := codec
  crypto := crypto
  resolve did :=
    if did = "did:x:alice" then some (document "did:x:alice#1" "alice")
    else if did = "did:x:mallory" then some (document "did:x:mallory#1" "mallory")
    else none
  getSecret kid := if kid = "did:x:bob#1" then some ⟨.x25519, utf8 "bob"⟩ else none
  privateFromRawBytes _ bytes := fromUtf8 bytes
  publicFromRawBytes _ bytes := fromUtf8 bytes
  decodeMultikeyWithCodec _ := none
  jwkToCodecBytes jwk := (jwk.strField "x").map fun x => (0xec, utf8 x)
  verifyEd25519 _ _ := .error (.verification "bad signature")

def config : ATMConfig := ⟨true, 0⟩

def metaEnvelope : MetaEnvelope :=
  ⟨text, text, some "did:x:bob", some "did:x:mallory", true, true, envelope, some "did:x:mallory"⟩

/-- What the mediator and the SDK report. -/
def metadata : UnpackMetadata :=
  ⟨true, true, false, false, some "did:x:alice#1", ["did:x:bob#1"], none, text⟩

/-! ### The run of the envelope -/

theorem fromStr_text : codec.fromStr text = .ok envelope := by simp only [codec, if_true]

theorem isJwe_envelope : isJwe envelope = true := by decide +kernel

theorem adapterUnpack_text : bob.adapterUnpack (utf8 text) =
    .ok ⟨"m-1", some "did:x:alice", "did:x:bob", utf8 "null", true, true⟩ := by
  have hunpack : bob.unpack text (bob.detectSender text) =
      .ok (.encrypted message true (some "did:x:alice#1") "did:x:bob#1" false false none) := by decide +kernel
  rw [DIDCommAgent.adapterUnpack_utf8 hunpack]
  rfl

theorem new_text : MetaEnvelope.new ring text = .ok metaEnvelope := by decide +kernel

theorem mediatorUnpack_text : MetaEnvelope.unpack ring metaEnvelope = .ok (message, metadata) := by decide +kernel

theorem sdkUnpack_text : Sdk.unpack ring config text = .ok (message, metadata) := by decide +kernel

theorem unwrap_eq_ok {kek : Agreement String} {wrapped cek : Bytes} (h : crypto.unwrap kek wrapped = .ok cek) :
    kek = agreement ∧ wrapped = List.replicate 8 0 := by
  simp only [crypto] at h
  split at h
  · assumption
  · cases h

end Forged

open Forged

/-- Mallory, with no key but Mallory's, is authenticated as Alice on all three paths, by an envelope
that does not open with Alice's key. -/
theorem mallory_reported_as_alice :
    (∃ r, bob.adapterUnpack (utf8 text) = .ok r ∧ r.verified = true ∧ r.sender = some "did:x:alice") ∧
    (∃ envelope msg metadata, MetaEnvelope.new ring text = .ok envelope ∧
      MetaEnvelope.unpack ring envelope = .ok (msg, metadata) ∧ metadata.authenticated = true ∧
      metadata.encryptedFromKid = some "did:x:alice#1") ∧
    (∃ msg metadata, Sdk.unpack ring config text = .ok (msg, metadata) ∧
      metadata.authenticated = true ∧ metadata.encryptedFromKid = some "did:x:alice#1") ∧
    MadeBy keys codec text "mallory" ∧
    ∀ kid priv, ¬OpensWith codec crypto text kid priv "alice" := by
  refine ⟨⟨_, adapterUnpack_text, rfl, rfl⟩,
    ⟨_, _, _, new_text, mediatorUnpack_text, rfl, rfl⟩, ⟨_, _, sdkUnpack_text, rfl, rfl⟩, ?_, ?_⟩
  · intro kid wrapped kek cek _ hcek
    obtain ⟨rfl, -⟩ := unwrap_eq_ok hcek
    exact .inl ⟨agreement, rfl, .inl rfl⟩
  · rintro kid priv ⟨epk, apu, apv, tag, kek, wrapped, cek, hderives, -, hcek⟩
    obtain ⟨rfl, -⟩ := unwrap_eq_ok hcek
    obtain ⟨legacy, h⟩ := hderives.eq_agree keys
    have : "mallory" = "alice" := congrArg Agreement.sender h
    exact absurd this (by decide)

/-- The iff at Mallory's envelope, on all three paths. -/
theorem reported_sender_mallory :
    (∃ r, AdapterReportsOwner bob keys text r) ∧
    (∃ metadata, MediatorReportsOwner ring keys text metadata) ∧
    ∃ metadata, SdkReportsOwner ring keys config text metadata := by
  obtain ⟨adapter, mediator, sdk⟩ := @reported_sender_owns_key_iff String String (Agreement String)
  exact ⟨⟨_, adapter bob keys (utf8 text) text envelope _ (fromUtf8_utf8 _)
      fromStr_text isJwe_envelope adapterUnpack_text rfl⟩,
    ⟨_, mediator ring keys text metaEnvelope message _ new_text
      mediatorUnpack_text rfl⟩,
    _, sdk ring keys config text message _ sdkUnpack_text rfl⟩

end AffinidiTdk.Didcomm
