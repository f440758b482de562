/-
Re-wrap relay layers (`messages/inbound.rs` `peel_relay_rewrap_layers`, `protocols/routing.rs`
`rewrap_inner_attachment`, `relay_peer_trusted`): forwards to this mediator whose next hop is this
mediator are taken off an inbound text one by one. Which peer a layer is from is decided by the
plaintext `from` of the unpacked message, not by the key that opened it.
-/
import AffinidiTdk.Didcomm.Sender
import AffinidiTdk.Store.Types

namespace AffinidiTdk.Routing

open Didcomm List Store MetaEnvelope

/-! ## Configuration -/

/-- Whether a relay wraps what it sends on. -/
inductive RelayMode
  | blind
  | rewrap

/-- The settings of relaying. -/
structure ForwardingConfig where
  externalForwarding : Bool
  relayMode : RelayMode
  maxHops : ℕ
  relayTrustedMediators : List String
  futureTimeLimit : ℕ

/-! ## Layers -/

/-- `serde_json::from_value::<ForwardRequest>`: an object with an optional `next`, or the sequence
form of the structure. -/
def forwardRequest : Json → Except String (Option String)
  | .obj fields => optionalStr (.obj fields) "next"
  | .arr [.str next] => .ok (some next)
  | .arr [.null] => .ok none
  | .arr [] => .error "invalid length 0, expected struct ForwardRequest with 1 element"
  | _ => .error "invalid type, expected struct ForwardRequest"

section

variable {Priv Pub Kek : Type} (ring : Keyring Priv Pub Kek)

/-- The inner text of a forward whose next hop is the mediator itself. -/
def rewrapInnerAttachment (mediatorDid : String) (msg : Message) : Option String :=
  if msg.typ ≠ Sdk.forwardType then none
  else do
    let next ← (← (forwardRequest msg.body).toOption)
    if next ≠ mediatorDid then none
    else
      let attachment ← (← msg.attachments).head?
      let bytes ← (ring.codec.base64 (← attachment.base64)).toOption
      fromUtf8 bytes

/-- An empty list accepts any peer, another one its members only. -/
def relayPeerTrusted (allow : List String) : Option String → Bool
  | some sender => allow.isEmpty || allow.contains sender
  | none => allow.isEmpty

/-- A re-wrap layer: its envelope, the message in it and the text inside. -/
structure Layer where
  envelope : MetaEnvelope
  msg : Message
  metadata : UnpackMetadata
  inner : String
  deriving DecidableEq

/-- A text as a re-wrap layer; whatever cannot be read or opened is none. -/
def recognise (mediatorDid current : String) : Option Layer := do
  let envelope ← (MetaEnvelope.new ring current).toOption
  if envelope.toDid ≠ some mediatorDid then none
  else
    let (msg, metadata) ← (MetaEnvelope.unpack ring envelope).toOption
    let inner ← rewrapInnerAttachment ring mediatorDid msg
    return ⟨envelope, msg, metadata, inner⟩

/-! ## The loop -/

/-- A turn of the loop: it returns, or goes on with the text inside the layer it took off. -/
inductive Turn
  | finish (result : Except MediatorError String)
  | peeled (layer : Layer)

variable (config : ForwardingConfig) (mediatorDid sessionId : String)

def untrustedPeer (msg : Message) : MediatorError :=
  .problem 60 sessionId (some msg.id) .error .protocol "authorization.relay.untrusted_peer"
    "Relaying mediator is not in the trusted relay allowlist" [] 403

def loopDetected (msg : Message) : MediatorError :=
  .problem 94 sessionId (some msg.id) .error .protocol "protocol.forwarding.loop_detected"
    "Re-wrap relay exceeded maximum hop count, possible loop" [] 508

/-- One turn, after `depth` layers were taken off. -/
def turn (depth : ℕ) (current : String) : Turn :=
  match recognise ring mediatorDid current with
  | none => .finish (.ok current)
  | some layer =>
    if !relayPeerTrusted config.relayTrustedMediators layer.msg.sender then
      .finish (.error (untrustedPeer sessionId layer.msg))
    else if depth + 1 > config.maxHops then
      .finish (.error (loopDetected sessionId layer.msg))
    else .peeled layer

variable {ring config mediatorDid sessionId}

variable {depth : ℕ} {current : String} {layer : Layer}

theorem turn_eq_peeled (h : turn ring config mediatorDid sessionId depth current = .peeled layer) :
    recognise ring mediatorDid current = some layer ∧ relayPeerTrusted config.relayTrustedMediators
    layer.msg.sender = true ∧ depth < config.maxHops := by
  unfold turn at h
  split at h
  · cases h
  · rename_i layer' hlayer
    split at h
    · cases h
    · rename_i htrusted
      split at h
      · cases h
      · cases h
        exact ⟨hlayer, by simpa using htrusted, by omega⟩

variable (ring config mediatorDid sessionId)

/-- `peel_relay_rewrap_layers` from some depth on: the layers it takes off and what it returns. -/
def peelFrom (depth : ℕ) (current : String) : List Layer × Except MediatorError String :=
  match h : turn ring config mediatorDid sessionId depth current with
  | .finish result => ([], result)
  | .peeled layer =>
    let rest := peelFrom (depth + 1) layer.inner
    (layer :: rest.1, rest.2)
termination_by config.maxHops - depth
decreasing_by
  have := (turn_eq_peeled h).2.2
  omega

def peelRelayRewrapLayers (message : String) : List Layer × Except MediatorError String :=
  peelFrom ring config mediatorDid sessionId 0 message

/-- The layers nested in a text, whoever they are from, at most `n` of them. -/
def nestedLayers : ℕ → String → List Layer
  | 0, _ => []
  | n + 1, current =>
    match recognise ring mediatorDid current with
    | none => []
    | some layer => layer :: nestedLayers n layer.inner

/-! ## What the loop takes off -/

variable {ring config mediatorDid sessionId}

variable {result : Except MediatorError String}

theorem peelFrom_of_finish (h : turn ring config mediatorDid sessionId depth current = .finish result) :
    peelFrom ring config mediatorDid sessionId depth current = ([], result) := by
  rw [peelFrom]
  split
  · rename_i result' h'
    rw [h] at h'
    cases h'
    rfl
  · rename_i layer h'
    rw [h] at h'
    cases h'

theorem peelFrom_of_peeled (h : turn ring config mediatorDid sessionId depth current = .peeled layer) :
    peelFrom ring config mediatorDid sessionId depth current =
    (layer :: (peelFrom ring config mediatorDid sessionId (depth + 1) layer.inner).1,
    (peelFrom ring config mediatorDid sessionId (depth + 1) layer.inner).2) := by
  rw [peelFrom]
  split
  · rename_i result h'
    rw [h] at h'
    cases h'
  · rename_i layer' h'
    rw [h] at h'
    cases h'
    rfl

theorem turn_finish_error {n : ℕ} (h : turn ring config mediatorDid sessionId depth current = .finish result)
    (hne : nestedLayers ring mediatorDid (n + 1) current ≠ []) : ∃ e, result = .error e := by
  unfold turn at h
  cases hlayer : recognise ring mediatorDid current with
  | none => simp [nestedLayers, hlayer] at hne
  | some layer =>
    simp only [hlayer] at h
    split at h
    · cases h
      exact ⟨_, rfl⟩
    · split at h
      · cases h
        exact ⟨_, rfl⟩
      · cases h

/-- The layers taken off are the first nested ones, up to the first whose `from` is not trusted. -/
theorem peelFrom_layers (depth n : ℕ) (hn : depth + n = config.maxHops) (current : String) :
    (peelFrom ring config mediatorDid sessionId depth current).1 =
      (nestedLayers ring mediatorDid n current).takeWhile fun layer =>
        relayPeerTrusted config.relayTrustedMediators layer.msg.sender := by
  induction n generalizing depth current with
  | zero =>
    cases h : turn ring config mediatorDid sessionId depth current with
    | finish result => simp [peelFrom_of_finish h, nestedLayers]
    | peeled layer => have := (turn_eq_peeled h).2.2; omega
  | succ n ih =>
    cases h : turn ring config mediatorDid sessionId depth current with
    | finish result =>
      rw [peelFrom_of_finish h]
      unfold turn at h
      cases hlayer : recognise ring mediatorDid current with
      | none => simp [nestedLayers, hlayer]
      | some layer =>
        simp only [hlayer] at h
        split at h
        · rename_i htrusted
          simp only [nestedLayers, hlayer]
          rw [takeWhile_cons, if_neg (by simpa using htrusted)]
        · rw [if_neg (by omega)] at h
          cases h
    | peeled layer =>
      obtain ⟨hlayer, htrusted, -⟩ := turn_eq_peeled h
      rw [peelFrom_of_peeled h, nestedLayers, hlayer]
      simp only
      rw [takeWhile_cons, if_pos htrusted, ih (depth + 1) (by omega)]

theorem peelFrom_rest (depth n : ℕ) (hn : depth + n = config.maxHops) (current : String) :
    ∃ rest, nestedLayers ring mediatorDid (n + 1) current =
        (peelFrom ring config mediatorDid sessionId depth current).1 ++ rest ∧
      (rest ≠ [] → ∃ e, (peelFrom ring config mediatorDid sessionId depth current).2 = .error e) := by
  induction n generalizing depth current with
  | zero =>
    cases h : turn ring config mediatorDid sessionId depth current with
    | peeled layer => have := (turn_eq_peeled h).2.2; omega
    | finish result =>
      refine ⟨_, by rw [peelFrom_of_finish h, nil_append], ?_⟩
      rw [peelFrom_of_finish h]
      exact turn_finish_error h
  | succ n ih =>
    cases h : turn ring config mediatorDid sessionId depth current with
    | finish result =>
      refine ⟨_, by rw [peelFrom_of_finish h, nil_append], ?_⟩
      rw [peelFrom_of_finish h]
      exact turn_finish_error h
    | peeled layer =>
      obtain ⟨hlayer, -, -⟩ := turn_eq_peeled h
      obtain ⟨rest, hrest, herror⟩ := ih (depth + 1) (by omega) layer.inner
      refine ⟨rest, ?_, ?_⟩
      · rw [peelFrom_of_peeled h, nestedLayers, hlayer]
        simp [hrest]
      · rw [peelFrom_of_peeled h]
        exact herror

/-! ## Trusted peers -/

/-- The layer was authcrypted by a DID: its envelope opened by ECDH-1PU with the key of the DID it
was looked up for. -/
def AuthcryptedBy (ring : Keyring Priv Pub Kek) (layer : Layer) (did : String) : Prop :=
  layer.metadata.authenticated = true ∧ layer.envelope.senderDid = some did ∧
  ∃ pub kid priv, ring.resolveDidKeyAgreement did = some pub ∧
    OpensWith ring.codec ring.crypto layer.envelope.raw kid priv pub

/-- The layer is a trusted peer's. -/
def ByTrustedPeer (ring : Keyring Priv Pub Kek) (config : ForwardingConfig) (layer : Layer) : Prop :=
  ∃ did ∈ config.relayTrustedMediators, AuthcryptedBy ring layer did

/-- What the mediator's unpacking says of a layer: authcrypted, by a sender on the list. -/
def senderListed (config : ForwardingConfig) (layer : Layer) : Bool :=
  layer.metadata.authenticated && match layer.envelope.senderDid with
    | some did => config.relayTrustedMediators.contains did
    | none => false

theorem recognise_eq_some (h : recognise ring mediatorDid current = some layer) : new ring current =
    .ok layer.envelope ∧ unpack ring layer.envelope = .ok (layer.msg, layer.metadata) ∧
    rewrapInnerAttachment ring mediatorDid layer.msg = some layer.inner := by
  unfold recognise at h
  cases hnew : new ring current with
  | error e => simp [hnew, Except.toOption] at h
  | ok envelope =>
    simp only [hnew, Except.toOption, bind, Option.bind_some] at h
    split at h
    · cases h
    · cases hunpack : unpack ring envelope with
      | error e => simp [hunpack] at h
      | ok result =>
        simp only [hunpack, Option.bind_some, Option.bind_eq_some_iff, pure, Option.some.injEq] at h
        obtain ⟨inner, hinner, rfl⟩ := h
        exact ⟨rfl, hunpack, hinner⟩

theorem byTrustedPeer_iff (h : recognise ring mediatorDid current = some layer) : ByTrustedPeer ring config layer ↔
    senderListed config layer = true := by
  obtain ⟨hnew, hunpack, -⟩ := recognise_eq_some h
  constructor
  · rintro ⟨did, hdid, hauth, hsender, -⟩
    simp [senderListed, hauth, hsender, hdid]
  · intro hlisted
    simp only [senderListed, Bool.and_eq_true] at hlisted
    obtain ⟨hauth, hlisted⟩ := hlisted
    obtain ⟨header, did, pub, recipients, kid, priv, -, hsender, -, hpub, -, hopens, -⟩ :=
      authenticated_spec hnew hunpack hauth
    rw [hsender] at hlisted
    refine ⟨did, by simpa using hlisted, hauth, hsender, pub, kid, priv, hpub, ?_⟩
    rw [(new_eq_ok hnew).1]
    exact hopens

theorem mem_nestedLayers {n : ℕ} (h : layer ∈ nestedLayers ring mediatorDid n current) :
    ∃ text, recognise ring mediatorDid text = some layer := by
  induction n generalizing current with
  | zero => simp [nestedLayers] at h
  | succ n ih =>
    unfold nestedLayers at h
    split at h
    · simp at h
    · rename_i first hfirst
      rcases mem_cons.1 h with rfl | h
      · exact ⟨current, hfirst⟩
      · exact ih h

/-- The property of a call: the layers it takes off are trusted peers', at a layer it reaches that
is not it fails, and it takes off at most `max_hops`. -/
structure PeelsOnlyTrusted (ring : Keyring Priv Pub Kek) (config : ForwardingConfig) (mediatorDid sessionId : String)
    (message : String) : Prop where
  trusted : ∀ layer ∈ (peelRelayRewrapLayers ring config mediatorDid sessionId message).1,
    ByTrustedPeer ring config layer
  refuses : ∀ layer ∈ (nestedLayers ring mediatorDid (config.maxHops + 1) message).take
      ((peelRelayRewrapLayers ring config mediatorDid sessionId message).1.length + 1),
    ¬ByTrustedPeer ring config layer →
      ∃ e, (peelRelayRewrapLayers ring config mediatorDid sessionId message).2 = .error e
  bounded : (peelRelayRewrapLayers ring config mediatorDid sessionId message).1.length ≤ config.maxHops

theorem nestedLayers_length_le (n : ℕ) (current : String) :
    (nestedLayers ring mediatorDid n current).length ≤ n := by
  induction n generalizing current with
  | zero => simp [nestedLayers]
  | succ n ih =>
    unfold nestedLayers
    split
    · simp
    · simpa using ih _

/-- Only trusted peers' layers are taken off exactly when every nested layer, up to the first whose
plaintext `from` is not on the list, was authcrypted by a sender on the list. Within the first
`max_hops` layers: the loop looks no further. -/
theorem peelsOnlyTrusted_iff (ring : Keyring Priv Pub Kek) (config : ForwardingConfig)
    (mediatorDid sessionId message : String) :
    PeelsOnlyTrusted ring config mediatorDid sessionId message ↔
      ∀ layer ∈ (nestedLayers ring mediatorDid config.maxHops message).takeWhile fun layer =>
        relayPeerTrusted config.relayTrustedMediators layer.msg.sender, senderListed config layer = true := by
  have hlayers : (peelRelayRewrapLayers ring config mediatorDid sessionId message).1 = _ :=
    peelFrom_layers 0 config.maxHops (Nat.zero_add _) message
  obtain ⟨rest, hrest, herror⟩ : ∃ rest, nestedLayers ring mediatorDid (config.maxHops + 1) message =
      (peelRelayRewrapLayers ring config mediatorDid sessionId message).1 ++ rest ∧
      (rest ≠ [] → ∃ e, (peelRelayRewrapLayers ring config mediatorDid sessionId message).2 = .error e) :=
    peelFrom_rest 0 config.maxHops (Nat.zero_add _) message
  -- every layer in sight is a recognised one, so the two readings of "trusted peer" agree
  have hiff : ∀ layer ∈ (peelRelayRewrapLayers ring config mediatorDid sessionId message).1,
      ByTrustedPeer ring config layer ↔ senderListed config layer = true := by
    intro layer hmem
    rw [hlayers] at hmem
    obtain ⟨text, htext⟩ := mem_nestedLayers (takeWhile_subset _ hmem)
    exact byTrustedPeer_iff htext
  constructor
  · intro h layer hmem
    rw [← hlayers] at hmem
    exact (hiff layer hmem).1 (h.trusted layer hmem)
  · intro h
    have htrusted : ∀ layer ∈ (peelRelayRewrapLayers ring config mediatorDid sessionId message).1,
        ByTrustedPeer ring config layer := by
      intro layer hmem
      exact (hiff layer hmem).2 (h layer (hlayers ▸ hmem))
    refine ⟨htrusted, ?_, ?_⟩
    · intro layer hmem hnot
      -- the layers taken off are trusted, so this is the one after them
      apply herror
      rintro rfl
      rw [hrest, append_nil] at hmem
      exact hnot (htrusted layer (mem_of_mem_take hmem))
    · rw [hlayers]
      exact ( takeWhile_prefix _).length_le.trans (nestedLayers_length_le _ _)

end

/-! ## A layer nobody encrypted

A plaintext forward to the mediator that names a trusted peer as its `from`. -/

namespace PlainLayer

def text : String :=
  "\x7b\"id\":\"1\",\"type\":\"https://didcomm.org/routing/2.0/forward\",\"from\":\"did:x:peer\"," ++
  "\"to\":[\"did:x:med\"],\"body\":\x7b\"next\":\"did:x:med\"\x7d,\"attachments\":[\x7b\"data\":" ++
  "\x7b\"base64\":\"e30\"\x7d\x7d]\x7d"

def body : Json := .obj [("next", .str "did:x:med")]

def value : Json :=
  .obj [("id", .str "1"), ("type", .str Sdk.forwardType), ("from", .str "did:x:peer"),
    ("to", .arr [.str "did:x:med"]),
    ("body", body), ("attachments", .arr [.obj [("data", .obj [("base64", .str "e30")])]])]

def message : Message :=
  { id := "1", typ := Sdk.forwardType, sender := some "did:x:peer", toDids := some ["did:x:med"], body
    attachments := some [{ base64 := some "e30" }] }

/-- The codec of the forged envelopes, on this text and the empty object inside it. -/
def codec : Codec := { Forged.codec with
  fromStr := fun s => if s = "\x7b\x7d" then .ok (.obj []) else if s = text then .ok value else .error
    "expected value"
  message := fun bytes => if bytes = utf8 text then .ok message else .error "expected value"
  base64 := fun s => if s = "e30" then .ok (utf8 "\x7b\x7d") else .error "invalid encoding" }

def ring : Keyring String String (Agreement String) := { Forged.ring with codec }

def config : ForwardingConfig := ⟨true, .rewrap, 10, ["did:x:peer"], 0⟩

def layer : Layer :=
  ⟨⟨text, text, some "did:x:med", some "did:x:peer", false, false, value, none⟩, message, { sha256Hash := text },
    "\x7b\x7d"⟩

theorem peeled_text : (peelRelayRewrapLayers ring config "did:x:med" "session" text).1 = [layer] := by
  decide +kernel

end PlainLayer

/-- With a trusted peer on the list, a plaintext layer that nobody authcrypted is taken off. -/
theorem plain_layer_peeled :
    PlainLayer.config.relayTrustedMediators ≠ [] ∧ PlainLayer.layer.metadata.encrypted = false ∧
    ¬PeelsOnlyTrusted PlainLayer.ring PlainLayer.config "did:x:med" "session" PlainLayer.text := by
  refine ⟨by decide, rfl, ?_⟩
  intro h
  obtain ⟨did, -, hauth, -⟩ := h.trusted PlainLayer.layer (by simp [PlainLayer.peeled_text])
  cases hauth

end AffinidiTdk.Routing
