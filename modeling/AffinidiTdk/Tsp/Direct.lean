/-
TSP messages (`message/envelope.rs` and `message/direct.rs`): the cleartext envelope, the payload
frame that is sealed, packing and unpacking. What `pack_with_hops` packs for a receiver, `unpack`
gives back: every frame stands in the message where the decoder looks for it, whatever its size.
-/
import AffinidiTdk.Tsp.Wire

namespace AffinidiTdk.Tsp

open Fallible List Text
open Wire
open Slice (At)

/-- The kinds of messages. -/
inductive MessageType
  | direct
  | nested
  | routed
  | control

/-! ## The envelope -/

/-- The major version of the protocol. -/
def protocolVersion : ℕ := 1

/-- The head of a message. -/
structure Envelope where
  version : ℕ
  messageType : MessageType
  sender : String
  receiver : String

/-- An envelope that was read, with its length. -/
structure DecodedEnvelope where
  envelope : Envelope
  headerLen : ℕ

namespace Envelope

def new (messageType : MessageType) (sender receiver : String) : Envelope :=
  ⟨protocolVersion, messageType, sender, receiver⟩

/-- The frame of the envelope without its count code. -/
def body (envelope : Envelope) : Bytes :=
  encodeVersion ++ (encodeVariableData tspVid (Text.utf8 envelope.sender) ++
    (encodeVariableData tspVid (Text.utf8 envelope.receiver) ++ encodeFixedData tspTmp [0, 0]))

/-- The length is counted in groups of three bytes. -/
def encode (envelope : Envelope) : Except TspError Bytes :=
  if envelope.body.length % 3 ≠ 0 then
    .error (.invalidMessage "envelope body not a multiple of 3 bytes")
  else
    .ok (encodeCount tspEtsWrapper (envelope.body.length / 3 % 2 ^ 32) ++ envelope.body)

def decodeFull (data : Bytes) : Except TspError DecodedEnvelope := do
  let (_, pos) ← decodeCount tspEtsWrapper data 0 |> okOrInvalid "missing -E envelope wrapper"
  let pos ← decodeVersion data pos
  let (senderBytes, pos) ← decodeVariableData tspVid data pos |> okOrInvalid "missing sender VID"
  let sender ← Text.fromUtf8 senderBytes |> okOrInvalid "invalid sender VID encoding"
  let (receiverBytes, pos) ← decodeVariableData tspVid data pos |> okOrInvalid "missing receiver VID"
  let receiver ← Text.fromUtf8 receiverBytes |> okOrInvalid "invalid receiver VID encoding"
  -- the marker is consumed where it stands and is no error where it does not
  let pos := ((decodeFixedData 2 tspTmp data pos).map Prod.snd).getD pos
  .ok ⟨⟨protocolVersion, .direct, sender, receiver⟩, pos⟩

def decode (data : Bytes) : Except TspError (Envelope × ℕ) := do
  let decoded ← decodeFull data
  .ok (decoded.envelope, decoded.headerLen)

end Envelope

/-! ## The payload frame -/

namespace PayloadMarker

def direct : Bytes := XSCS
def hop : Bytes := XHOP
def control : Bytes := Text.utf8 "ACT"

end PayloadMarker

def payloadHead (kind : MessageType) (hops : List String) : Bytes :=
  match kind with
  | .direct => PayloadMarker.direct
  | .nested => PayloadMarker.hop ++ encodeHops []
  | .routed => PayloadMarker.hop ++ encodeHops (hops.map Text.utf8)
  | .control => PayloadMarker.control

def encodePayloadFrame (body : Bytes) (kind : MessageType) (hops : List String) : Bytes :=
  let frameBody := payloadHead kind hops ++ encodeVariableData tspPlaintext body
  encodeCount tspPayload (frameBody.length / 3 % 2 ^ 32) ++ frameBody

/-- The kind and the route the marker of a payload frame announces, with the position after them. -/
def decodePayloadHead (marker frame : Bytes) (pos : ℕ) : Except TspError (MessageType × List String × ℕ) :=
  if marker = PayloadMarker.direct then
    .ok (.direct, [], pos + 3)
  else if marker = PayloadMarker.hop then do
    let (hopBytes, pos) ← decodeHops frame (pos + 3)
    let hops ← hopBytes.mapM fun h => Text.fromUtf8 h |> okOrInvalid "hop VID not UTF-8"
    .ok (if hops.isEmpty then .nested else .routed, hops, pos)
  else if marker = PayloadMarker.control then
    .ok (.control, [], pos + 3)
  else
    .error (.invalidMessage "unsupported TSP payload type marker")

def decodePayloadFrame (frame : Bytes) : Except TspError (MessageType × List String × Bytes) := do
  let (_, pos) ← decodeCount tspPayload frame 0 |> okOrInvalid "missing -Z payload frame"
  -- an identity field of the sender is skipped
  let pos := ((decodeVariableData tspVid frame pos).map Prod.snd).getD pos
  let marker ← Slice.get? frame pos (pos + 3) |> okOrInvalid "missing payload type marker"
  let (kind, hops, pos) ← decodePayloadHead marker frame pos
  let (body, _) ← decodeVariableData tspPlaintext frame pos |> okOrInvalid "missing payload plaintext"
  .ok (kind, hops, body)

/-! ## The signature frame -/

def encLen : ℕ := 32
def tagLen : ℕ := 16
def sigLen : ℕ := 64
def maxMessageSize : ℕ := maxFieldSize

/-- The size of the signature groups. -/
def sigQuadlets : ℕ := (sigLen + 2) / 3

def encodeSignatureFrame (signature : Block sigLen) : Bytes :=
  encodeCount tspAttachGrp sigQuadlets ++
    (encodeCount tspIndexSigGrp sigQuadlets ++ encodeFixedData ed25519Signature signature.1)

def decodeSignatureFrame (data : Bytes) (pos : ℕ) : Except TspError (Block sigLen × ℕ) := do
  let (a, pos) ← decodeCount tspAttachGrp data pos |> okOrInvalid "missing -C signature group"
  let (k, pos) ← decodeCount tspIndexSigGrp data pos |> okOrInvalid "missing -K signature group"
  if a ≠ sigQuadlets ∨ k ≠ sigQuadlets then
    .error (.invalidMessage "unexpected signature group size")
  else
    decodeFixedData sigLen ed25519Signature data pos |> okOrInvalid "missing Ed25519 signature"

/-! ## Packing and unpacking -/

/-- The two parts that HPKE gives. -/
structure SealResult where
  enc : Block encLen
  ciphertext : Bytes

/-- HPKE (`crypto/hpke.rs`) and Ed25519 (`crypto/signing.rs`). Sealing draws an ephemeral key. -/
structure Crypto where
  hpkeSeal (ephemeral : Block 32) (plaintext aad : Bytes) (senderSk recipientPk : Block 32) (info : Bytes) :
    Except TspError SealResult
  hpkeOpen (ciphertext aad : Bytes) (enc : Block encLen) (recipientSk senderPk : Block 32) (info : Bytes) :
    Except TspError Bytes
  encryptionPublic (sk : Block 32) : Block 32
  sign (data : Bytes) (privateKey : Block 32) : Except TspError (Block sigLen)
  verify (data : Bytes) (signature : Block sigLen) (publicKey : Block 32) : Except TspError Unit
  signingPublic (sk : Block 32) : Block 32

/-- A message that was opened. -/
structure UnpackedMessage where
  payload : Bytes
  hops : List String
  sender : String
  receiver : String
  messageType : MessageType

namespace Crypto

variable (crypto : Crypto)

def packWithHops (ephemeral : Block 32) (body : Bytes) (messageType : MessageType) (hops : List String)
    (senderVid receiverVid : String) (senderSigningKey senderEncryptionKey receiverEncryptionKey : Block 32) :
    Except TspError Bytes := do
  let envelopeBytes ← (Envelope.new messageType senderVid receiverVid).encode
  let payloadFrame := encodePayloadFrame body messageType hops
  let sealed ← crypto.hpkeSeal ephemeral payloadFrame [] senderEncryptionKey receiverEncryptionKey envelopeBytes
  let gPayload := sealed.ciphertext ++ sealed.enc.1
  let wireBytes := envelopeBytes ++ encodeVariableData tspHpkeauthCiphertext gPayload
  let signature ← crypto.sign wireBytes senderSigningKey
  .ok (wireBytes ++ encodeSignatureFrame signature)

def pack (ephemeral : Block 32) (payload : Bytes) (messageType : MessageType) (senderVid receiverVid : String)
    (senderSigningKey senderEncryptionKey receiverEncryptionKey : Block 32) : Except TspError Bytes :=
  crypto.packWithHops ephemeral payload messageType [] senderVid receiverVid senderSigningKey senderEncryptionKey
    receiverEncryptionKey

/-- The message behind a verified signature: open the ciphertext and read its frame. -/
def openPayload (gPayload envelopeBytes : Bytes) (envelope : Envelope)
    (receiverDecryptionKey senderEncryptionKey : Block 32) : Except TspError UnpackedMessage :=
  let encStart := gPayload.length - encLen
  if h : (gPayload.drop encStart).length = encLen then do
    let payloadFrame ←
      crypto.hpkeOpen (gPayload.take encStart) [] ⟨_, h⟩ receiverDecryptionKey senderEncryptionKey envelopeBytes
    let (messageType, hops, payload) ← decodePayloadFrame payloadFrame
    .ok ⟨payload, hops, envelope.sender, envelope.receiver, messageType⟩
  else
    .error (.invalidMessage "bad enc size")

def unpack (wireBytes : Bytes) (receiverDecryptionKey senderEncryptionKey senderSigningKey : Block 32) :
    Except TspError UnpackedMessage :=
  if wireBytes.length < 48 then
    .error (.invalidMessage "message too short")
  else do
    let decoded ← Envelope.decodeFull wireBytes
    let (ctStart, signedEnd) ← decodeVariableDataRange tspHpkeauthCiphertext wireBytes decoded.headerLen
      |> okOrInvalid "missing G ciphertext frame"
    if signedEnd - ctStart > maxMessageSize then
      .error (.invalidMessage "ciphertext too large")
    else if signedEnd - ctStart < encLen + tagLen then
      .error (.invalidMessage "ciphertext truncated")
    else
      let (signature, pos) ← decodeSignatureFrame wireBytes signedEnd
      if pos ≠ wireBytes.length then
        .error (.invalidMessage "trailing bytes after signature")
      else
        crypto.verify (wireBytes.take signedEnd) signature senderSigningKey
        crypto.openPayload ((wireBytes.drop ctStart).take (signedEnd - ctStart)) (wireBytes.take decoded.headerLen)
          decoded.envelope receiverDecryptionKey senderEncryptionKey

end Crypto

/-! ## The round trip -/

/-- The longest variable data the long header can state. -/
def maxVariableData : ℕ := 3 * (2 ^ 24 - 1)

namespace Envelope

variable {envelope : Envelope} {bytes data : Bytes}

/-- An envelope is its body under a count code. -/
theorem encode_eq (envelope : Envelope) :
    envelope.encode = .ok (encodeCount tspEtsWrapper (envelope.body.length / 3 % 2 ^ 32) ++ envelope.body) := by
  have hsender := length_encodeVariableData_mod tspVid (utf8 envelope.sender)
  have hreceiver := length_encodeVariableData_mod tspVid (utf8 envelope.receiver)
  have hbody : envelope.body.length % 3 = 0 := by
    unfold body
    rw [length_append, length_append, length_append]
    have hversion : encodeVersion.length = 6 := by decide
    have htmp : (encodeFixedData tspTmp [0, 0]).length = 3 := by decide
    omega
  rw [encode, if_neg (not_not_intro hbody)]

theorem decodeFull_encode (hencode : envelope.encode = .ok bytes)
    (hsender : (utf8 envelope.sender).length ≤ maxVariableData)
    (hreceiver : (utf8 envelope.receiver).length ≤ maxVariableData) (h : At data 0 bytes) :
    decodeFull data = .ok ⟨⟨protocolVersion, .direct, envelope.sender, envelope.receiver⟩, bytes.length⟩ := by
  cases (encode_eq envelope).symm.trans hencode
  generalize envelope.body.length / 3 % 2 ^ 32 = count at h ⊢
  unfold body at h ⊢
  obtain ⟨found, hcount, -⟩ := decodeCount_encodeCount (by decide) (by decide) h.left
  have hversion := decodeVersion_encodeVersion h.right.left
  have hsent := decodeVariableData_encodeVariableData (by decide) hsender h.right.right.left
  have hreceived := decodeVariableData_encodeVariableData (by decide) hreceiver h.right.right.right.left
  have htmp := @decodeFixedData_encodeFixedData _ _ _ 2 ⟨[0, 0], rfl⟩ h.right.right.right.right
  simp only [decodeFull, hcount, okOrInvalid_some, ok_bind, hversion, hsent, hreceived, fromUtf8_utf8, htmp,
    Option.map_some, Option.getD_some]
  simp only [length_append, Nat.zero_add, Nat.add_assoc]

end Envelope

/-- The routes of a kind: only a routed message has hops, and at least one. -/
def ValidRoute : MessageType → List String → Prop
  | .routed, hops => 1 ≤ hops.length ∧ hops.length ≤ maxHops
  | _, hops => hops = []

section Frames

variable {frame : Bytes} {pos : ℕ} {kind : MessageType} {hops : List String}

theorem mapM_fromUtf8 (hops : List String) :
    ((hops.map utf8).mapM fun h => fromUtf8 h |> okOrInvalid "hop VID not UTF-8") = .ok hops := by
  induction hops with
  | nil => rfl
  | cons hop hops ih =>
    rw [map_cons, mapM_cons, fromUtf8_utf8, okOrInvalid_some, ok_bind, ih]
    rfl

theorem decodePayloadHead_hop {read : List String} (hroute : read.length ≤ maxHops)
    (hsize : ∀ hop ∈ read, (utf8 hop).length ≤ maxVariableData)
    (h : At frame pos (PayloadMarker.hop ++ encodeHops (read.map utf8))) :
    decodePayloadHead PayloadMarker.hop frame pos =
      .ok (if read.isEmpty then .nested else .routed, read,
        pos + (PayloadMarker.hop ++ encodeHops (read.map utf8)).length) := by
  have hsize' : ∀ hop ∈ read.map utf8, hop.length ≤ 3 * (2 ^ 24 - 1) := by
    intro hop hmem
    obtain ⟨text, htext, rfl⟩ := mem_map.1 hmem
    exact hsize text htext
  have hhops := decodeHops_encodeHops hsize' (by rwa [length_map]) h.right
  rw [show PayloadMarker.hop.length = 3 from rfl] at hhops
  unfold decodePayloadHead
  rw [if_neg (by decide), if_pos rfl, hhops, ok_bind, length_append, ← Nat.add_assoc]
  dsimp only
  rw [mapM_fromUtf8]
  rfl

section

variable (hroute : ValidRoute kind hops) (hsize : ∀ hop ∈ hops, (Text.utf8 hop).length ≤ maxVariableData)
include hroute hsize

theorem decodePayloadHead_payloadHead (h : At frame pos (payloadHead kind hops)) : ∃ marker, Slice.get? frame pos
    (pos + 3) = some marker ∧ decodeVariableData tspVid frame pos = none ∧ decodePayloadHead marker frame pos =
    .ok (kind, hops, pos + (payloadHead kind hops).length) := by
  cases kind with
  | direct =>
    obtain rfl : hops = [] := hroute
    refine ⟨_, h.get?, decodeVariableData_eq_none h rfl (by decide), ?_⟩
    exact if_pos rfl
  | nested =>
    obtain rfl : hops = [] := hroute
    exact ⟨_, h.left.get?, decodeVariableData_eq_none h.left rfl (by decide),
      decodePayloadHead_hop (by decide) hsize h⟩
  | routed =>
    obtain ⟨hpos, hmax⟩ : 1 ≤ hops.length ∧ hops.length ≤ maxHops := hroute
    refine ⟨_, h.left.get?, decodeVariableData_eq_none h.left rfl (by decide), ?_⟩
    have hne : ¬hops.isEmpty = true := by
      intro hempty
      rw [List.isEmpty_iff.1 hempty] at hpos
      cases hpos
    rw [decodePayloadHead_hop hmax hsize h, if_neg hne]
    rfl
  | control =>
    obtain rfl : hops = [] := hroute
    refine ⟨_, h.get?, decodeVariableData_eq_none h rfl (by decide), ?_⟩
    rw [decodePayloadHead, if_neg (by decide), if_neg (by decide)]
    exact if_pos rfl

theorem decodePayloadFrame_encodePayloadFrame {body : Bytes} (hbody : body.length ≤ maxVariableData)
    (h : At frame 0 (encodePayloadFrame body kind hops)) : decodePayloadFrame frame = .ok (kind, hops, body) := by
  obtain ⟨found, hcount, -⟩ := decodeCount_encodeCount (by decide) (by decide) h.left
  obtain ⟨marker, hmarker, hskip, hhead⟩ := decodePayloadHead_payloadHead hroute hsize h.right.left
  have hplain := decodeVariableData_encodeVariableData (by decide) hbody h.right.right
  simp only [decodePayloadFrame, hcount, okOrInvalid_some, ok_bind, hskip, Option.map_none, Option.getD_none,
    hmarker, hhead, hplain]

end

theorem decodeSignatureFrame_encodeSignatureFrame {signature : Block sigLen}
    (h : At frame pos (encodeSignatureFrame signature)) :
    decodeSignatureFrame frame pos = .ok (signature, pos + (encodeSignatureFrame signature).length) := by
  unfold encodeSignatureFrame at h ⊢
  obtain ⟨attached, hattach, hattached⟩ := decodeCount_encodeCount (by decide) (by decide) h.left
  obtain ⟨indexed, hindex, hindexed⟩ := decodeCount_encodeCount (by decide) (by decide) h.right.left
  obtain rfl := hattached (by decide)
  obtain rfl := hindexed (by decide)
  have hsig := decodeFixedData_encodeFixedData h.right.right
  simp only [decodeSignatureFrame, hattach, hindex, okOrInvalid_some, ok_bind, hsig]
  simp only [length_append, Nat.add_assoc]
  rfl

end Frames

namespace Crypto

/-- What packing relies on: `open` undoes `seal` under the matching keys, the same `info` and no AAD,
`seal` adds the tag, and `verify` accepts what `sign` made. -/
structure Inverse (crypto : Crypto) : Prop where
  open_seal (ephemeral : Block 32) (plaintext : Bytes) (senderSk recipientSk : Block 32) (info : Bytes) :
    plaintext.length ≤ maxMessageSize →
    ∃ sealed, crypto.hpkeSeal ephemeral plaintext [] senderSk (crypto.encryptionPublic recipientSk) info =
      .ok sealed ∧
      crypto.hpkeOpen sealed.ciphertext [] sealed.enc recipientSk (crypto.encryptionPublic senderSk) info =
        .ok plaintext ∧
      sealed.ciphertext.length = plaintext.length + tagLen
  verify_sign (data : Bytes) (sk : Block 32) :
    ∃ signature, crypto.sign data sk = .ok signature ∧ crypto.verify data signature (crypto.signingPublic sk) =
      .ok ()

variable {crypto : Crypto} {kind : MessageType} {hops : List String} {body : Bytes}

theorem openPayload_append {sealed : SealResult} {envelopeBytes payloadFrame : Bytes} {envelope : Envelope}
    {receiverDecryptionKey senderEncryptionKey : Block 32}
    (hopen : crypto.hpkeOpen sealed.ciphertext
      [] sealed.enc receiverDecryptionKey senderEncryptionKey envelopeBytes = .ok payloadFrame)
    (hframe : decodePayloadFrame payloadFrame = .ok (kind, hops, body)) :
    crypto.openPayload (sealed.ciphertext ++ sealed.enc.1) envelopeBytes envelope receiverDecryptionKey
      senderEncryptionKey = .ok ⟨body, hops, envelope.sender, envelope.receiver, kind⟩ := by
  obtain ⟨⟨enc, henc⟩, ciphertext⟩ := sealed
  have hstart : (ciphertext ++ enc).length - encLen = ciphertext.length := by
    rw [length_append, henc, Nat.add_sub_cancel]
  dsimp only at hopen
  unfold openPayload
  simp only [hstart, drop_left, take_left, dif_pos henc, hopen, ok_bind, hframe]

/-- Every message is unpacked as it was packed: of every kind with a route of that kind, from and to
every VID, with every body, as long as each field fits the long header. The envelope is as long as
`header_len` says. -/
theorem unpack_packWithHops (hcrypto : crypto.Inverse) (ephemeral : Block 32) {sender receiver : String}
    (senderSigningKey senderEncryptionKey receiverEncryptionKey : Block 32) (hroute : ValidRoute kind hops)
    (hsender : (utf8 sender).length ≤ maxVariableData)
      (hreceiver : (utf8 receiver).length ≤ maxVariableData)
    (hhops : ∀ hop ∈ hops, (utf8 hop).length ≤ maxVariableData) (hbody : body.length ≤ maxVariableData)
    (hciphertext : (encodePayloadFrame body kind hops).length + tagLen + encLen ≤ maxVariableData) :
    ∃ envelopeBytes packed,
      (Envelope.new kind sender receiver).encode = .ok envelopeBytes ∧
      crypto.packWithHops ephemeral body kind hops sender receiver senderSigningKey senderEncryptionKey
        (crypto.encryptionPublic receiverEncryptionKey) = .ok packed ∧
      crypto.unpack packed receiverEncryptionKey (crypto.encryptionPublic senderEncryptionKey)
        (crypto.signingPublic senderSigningKey) = .ok ⟨body, hops, sender, receiver, kind⟩ ∧
      (∀ data, data = envelopeBytes ∨ data = packed →
        (Envelope.decodeFull data).map DecodedEnvelope.headerLen = .ok envelopeBytes.length) := by
  obtain ⟨envelopeBytes, hencode⟩ : ∃ bytes, (Envelope.new kind sender receiver).encode = .ok bytes :=
    ⟨_, Envelope.encode_eq _⟩
  have hframe : (encodePayloadFrame body kind hops).length ≤ maxMessageSize :=
    (Nat.le_add_right _ _).trans ((Nat.add_assoc _ _ _).symm.trans_le (hciphertext.trans (by decide)))
  obtain ⟨sealed, hseal, hopen, htag⟩ := hcrypto.open_seal ephemeral (encodePayloadFrame body kind hops)
    senderEncryptionKey receiverEncryptionKey envelopeBytes hframe
  obtain ⟨signature, hsign, hverify⟩ := hcrypto.verify_sign
    (envelopeBytes ++ encodeVariableData tspHpkeauthCiphertext (sealed.ciphertext ++ sealed.enc.1)) senderSigningKey
  generalize hg : sealed.ciphertext ++ sealed.enc.1 = gPayload at hsign hverify
  have hglength : gPayload.length = (encodePayloadFrame body kind hops).length + tagLen + encLen := by
    rw [← hg, length_append, htag, sealed.enc.2]
  generalize hpacked : envelopeBytes ++ encodeVariableData tspHpkeauthCiphertext gPayload ++
    encodeSignatureFrame signature = packed
  -- envelope, ciphertext and signature frame stand one after the other
  have hat : At packed 0
      (envelopeBytes ++ encodeVariableData tspHpkeauthCiphertext gPayload ++ encodeSignatureFrame signature) := by
    rw [← hpacked]
    exact ⟨[], [], by simp, rfl⟩
  have hself : At envelopeBytes 0 envelopeBytes := ⟨[], [], by simp, rfl⟩
  have hdecode := fun {data} (h : At data 0 envelopeBytes) => Envelope.decodeFull_encode hencode hsender hreceiver h
  refine ⟨envelopeBytes, packed, hencode, ?_, ?_, ?_⟩
  · simp only [packWithHops, hencode, ok_bind, hseal, hg, hsign, hpacked]
  · obtain ⟨start, hrange, hstart, hgat⟩ :=
      decodeVariableDataRange_encodeVariableData (by decide) (hglength.trans_le hciphertext) hat.left.right
    have hsigned := decodeSignatureFrame_encodeSignatureFrame hat.right
    have hpayload := decodePayloadFrame_encodePayloadFrame hroute hhops hbody (Slice.at_self _ [])
    rw [Nat.zero_add] at hrange hstart hsigned
    rw [append_nil] at hpayload
    rw [← length_append] at hrange hstart
    generalize hend : (envelopeBytes ++ encodeVariableData tspHpkeauthCiphertext gPayload).length = signedEnd at *
    have hdata : (packed.drop start).take (signedEnd - start) = gPayload := by
      rw [← hstart, Nat.add_sub_cancel_left, hgat.take_drop]
    have hcovered : packed.take signedEnd =
        envelopeBytes ++ encodeVariableData tspHpkeauthCiphertext gPayload := by
      rw [← hpacked, ← hend, take_left]
    have hinfo : packed.take envelopeBytes.length = envelopeBytes := by
      rw [← hpacked, append_assoc, take_left]
    have htotal : signedEnd + (encodeSignatureFrame signature).length = packed.length := by
      rw [← hpacked, length_append, hend]
    have hlen : encLen + tagLen ≤ gPayload.length := by omega
    -- no check of a length fails
    have hshort : ¬packed.length < 48 := by
      unfold encLen tagLen at hlen
      omega
    have hlarge : ¬signedEnd - start > maxMessageSize := by
      unfold maxMessageSize maxFieldSize
      unfold maxVariableData at hciphertext
      omega
    have htruncated : ¬signedEnd - start < encLen + tagLen := by omega
    simp only [unpack, if_neg hshort, hdecode hat.left.left, ok_bind, hrange, okOrInvalid_some, if_neg hlarge,
      if_neg htruncated, hsigned, htotal, ne_eq, not_true_eq_false, if_false, hcovered, hverify, hdata, hinfo]
    rw [← hg]
    exact openPayload_append hopen hpayload
  · rintro data (rfl | rfl)
    · rw [hdecode hself]
      rfl
    · rw [hdecode hat.left.left]
      rfl

/-- A cipher that leaves its plaintext as it is, with an empty tag and an empty signature. -/
def plain : Crypto where
  hpkeSeal ephemeral plaintext _ _ _ _ := .ok ⟨ephemeral, plaintext ++ List.replicate tagLen 0⟩
  hpkeOpen ciphertext _ _ _ _ _ :=
    if ciphertext.length < tagLen then .error (.hpke "ChaCha20Poly1305 open failed: authentication tag mismatch")
    else .ok (ciphertext.take (ciphertext.length - tagLen))
  encryptionPublic sk := sk
  sign _ _ := .ok ⟨List.replicate sigLen 0, length_replicate⟩
  verify _ signature _ :=
    if signature.1 = List.replicate sigLen 0 then .ok ()
    else .error (.verification "signature verification failed")
  signingPublic sk := sk

theorem plain_inverse : plain.Inverse where
  open_seal ephemeral plaintext senderSk recipientSk info hlength := by
    refine ⟨⟨ephemeral, plaintext ++ List.replicate tagLen 0⟩, rfl, ?_, ?_⟩
    · have hlong : ¬(plaintext ++ List.replicate tagLen (0 : UInt8)).length < tagLen := by
        rw [length_append, length_replicate]
        omega
      show (if _ then _ else _) = _
      rw [if_neg hlong, length_append, length_replicate, Nat.add_sub_cancel, take_left]
    · rw [length_append, length_replicate]
  verify_sign data sk := by
    refine ⟨⟨List.replicate sigLen 0, length_replicate⟩, rfl, ?_⟩
    simp only [plain, if_true]

theorem unpack_packWithHops_routed :
    ∃ envelopeBytes packed,
      (Envelope.new .routed "did:web:alice.example" "did:web:bob.example").encode = .ok envelopeBytes ∧
      plain.packWithHops ⟨List.replicate 32 1, rfl⟩ [1, 2, 3, 4] .routed ["did:web:exit"] "did:web:alice.example"
        "did:web:bob.example" ⟨List.replicate 32 2, rfl⟩ ⟨List.replicate 32 3, rfl⟩ ⟨List.replicate 32 4, rfl⟩ =
          .ok packed ∧
      plain.unpack packed ⟨List.replicate 32 4, rfl⟩ ⟨List.replicate 32 3, rfl⟩ ⟨List.replicate 32 2, rfl⟩ =
        .ok ⟨[1, 2, 3, 4], ["did:web:exit"], "did:web:alice.example", "did:web:bob.example", .routed⟩ ∧
      (∀ data, data = envelopeBytes ∨ data = packed →
        (Envelope.decodeFull data).map DecodedEnvelope.headerLen = .ok envelopeBytes.length) :=
  unpack_packWithHops plain_inverse _ _ _ ⟨List.replicate 32 4, rfl⟩ ⟨by decide, by decide⟩ (by decide +kernel)
    (by decide +kernel) (by decide +kernel) (by decide) (by decide +kernel)

end Crypto

end AffinidiTdk.Tsp
