/-
Sorting a message at the ingress (`message/meta.rs`): the test of the first byte and the envelope
that is read without keys. The first byte is that of the short count code; an envelope of 4096
quadlets or more starts with the long one and is no TSP message to the test.
-/
import AffinidiTdk.Tsp.Direct
import AffinidiTdk.Tsp.WireLimits

namespace AffinidiTdk.Tsp

open Fallible List Envelope Text
open Wire
open Slice (At)

/-! ## The classifier -/

def tspMagicByte : UInt8 := 0xF8

def isTsp (bytes : Bytes) : Bool := bytes.head? == some tspMagicByte

/-- What is read off a message before it is opened. -/
structure MetaEnvelope where
  sender : String
  receiver : String
  messageType : MessageType
  sha256 : Block 32

/-- Reads the envelope of a message and computes its id, with `digest` for SHA-256. -/
def MetaEnvelope.parse (digest : Bytes → Block 32) (wire : Bytes) : Except TspError MetaEnvelope := do
  let (envelope, _) ← Envelope.decode wire
  .ok ⟨envelope.sender, envelope.receiver, envelope.messageType, digest wire⟩

variable {bytes rest payload : Bytes} {identifier count : ℕ}

theorem head?_toTriplet {word : ℕ} (rest : Bytes) :
    (toTriplet word ++ rest).head? = some (UInt8.ofNat (word / 256 ^ 2 % 256)) := rfl

theorem isTsp_encodeCount (hcount : count < 2 ^ 32) (rest : Bytes) :
    isTsp (encodeCount tspEtsWrapper count ++ rest) = true ↔ count < 4096 := by
  have hbits : bits tspEtsWrapper 6 = 4 := by decide
  rw [isTsp, beq_iff_eq]
  by_cases hshort : count < 4096
  · have hlow : bits count 12 = count := by rw [bits_eq_mod]; omega
    have hbyte : (62 * 2 ^ 18 + 4 * 2 ^ 12 + count) / 256 ^ 2 % 256 = 0xF8 := by omega
    rw [encodeCount, if_pos hshort, hbits, hlow, DASH, shortWord_eq (by decide) hshort, head?_toTriplet, hbyte]
    exact iff_of_true rfl hshort
  · have hlow : bits (count >>> 24) 6 < 64 := by rw [bits_eq_mod]; omega
    rw [encodeCount, if_neg hshort, hbits, append_assoc, DASH, D0]
    generalize bits (count >>> 24) 6 = low at *
    have hbyte : (62 * 2 ^ 18 + 52 * 2 ^ 12 + 4 * 2 ^ 6 + low) / 256 ^ 2 % 256 = 0xFB := by omega
    rw [longWord_eq (by decide) hlow, head?_toTriplet, hbyte]
    exact iff_of_false (by decide) hshort

/-! ## The size of an envelope -/

theorem length_encodeVariableData (hid : identifier < 64) (payload : Bytes) :
    ∃ header, (encodeVariableData identifier payload).length = 3 * (header + (payload.length + 2) / 3) ∧
      1 ≤ header ∧ header ≤ 2 ∧ ((payload.length + 2) / 3 < 4096 → header = 1) := by
  have hpadded : nextMultipleOfThree payload.length - payload.length + payload.length =
    3 * ((payload.length + 2) / 3) := by
    unfold nextMultipleOfThree
    omega
  have hquads : nextMultipleOfThree payload.length / 3 = (payload.length + 2) / 3 := by
    unfold nextMultipleOfThree
    omega
  unfold encodeVariableData
  dsimp only
  rw [length_append, length_append, length_replicate, hpadded, hquads]
  split
  · refine ⟨1, ?_, le_rfl, by decide, fun _ => rfl⟩
    rw [length_toTriplet]
    omega
  · rename_i hlong
    refine ⟨2, ?_, by decide, le_rfl, fun hshort => absurd ⟨?_, hid⟩ hlong⟩
    · rw [length_append, length_toTriplet, length_toTriplet]
      omega
    · omega

theorem envelope_quadlets (envelope : Envelope) : ∃ headers, envelope.body.length / 3 =
    3 + headers + ((utf8 envelope.sender).length + 2) / 3 + ((utf8 envelope.receiver).length + 2) / 3 ∧
    2 ≤ headers ∧ headers ≤ 4 ∧ (((utf8 envelope.sender).length + 2) / 3 < 4096 →
    ((utf8 envelope.receiver).length + 2) / 3 < 4096 → headers = 2) := by
  have hvid : tspVid < 64 := by decide
  obtain ⟨sent, hsent, hsent₁, hsent₂, hsentShort⟩ := length_encodeVariableData hvid (utf8 envelope.sender)
  obtain ⟨received, hreceived, hreceived₁, hreceived₂, hreceivedShort⟩ :=
    length_encodeVariableData hvid (utf8 envelope.receiver)
  have hversion : encodeVersion.length = 6 := by decide
  have htmp : (encodeFixedData tspTmp [0, 0]).length = 3 := by decide
  refine ⟨sent + received, ?_, by omega, by omega, fun hs hr => ?_⟩
  · unfold body
    rw [length_append, length_append, length_append]
    omega
  · rw [hsentShort hs, hreceivedShort hr]

theorem pack_starts {crypto : Crypto} {ephemeral : Block 32} {kind : MessageType} {sender receiver : String}
    {signingKey encryptionKey receiverKey : Block 32} {packed : Bytes}
    (h : crypto.pack ephemeral payload kind sender receiver signingKey encryptionKey receiverKey = .ok packed) :
    ∃ bytes rest, (new kind sender receiver).encode = .ok bytes ∧ packed = bytes ++ rest := by
  unfold Crypto.pack Crypto.packWithHops at h
  obtain ⟨bytes, hencode, h⟩ := bind_eq_ok_iff.1 h
  obtain ⟨sealed, -, h⟩ := bind_eq_ok_iff.1 h
  obtain ⟨signature, -, h⟩ := bind_eq_ok_iff.1 h
  cases h
  exact ⟨bytes, _, hencode, append_assoc _ _ _⟩

/-! ## Reading the envelope -/

theorem length_le_of_decodeFull {decoded : DecodedEnvelope} (h : decodeFull bytes = .ok decoded) :
    (utf8 decoded.envelope.sender).length ≤ maxVariableData ∧
      (utf8 decoded.envelope.receiver).length ≤ maxVariableData := by
  unfold decodeFull at h
  obtain ⟨_, -, h⟩ := bind_eq_ok_iff.1 h
  obtain ⟨_, -, h⟩ := bind_eq_ok_iff.1 h
  obtain ⟨⟨senderBytes, _⟩, hsent, h⟩ := bind_eq_ok_iff.1 h
  obtain ⟨sender, hsender, h⟩ := bind_eq_ok_iff.1 h
  obtain ⟨⟨receiverBytes, _⟩, hreceived, h⟩ := bind_eq_ok_iff.1 h
  obtain ⟨receiver, hreceiver, h⟩ := bind_eq_ok_iff.1 h
  cases h
  have hread {α : Type} {msg : String} {found : Option α} {a : α} (h : okOrInvalid msg found = .ok a) :
      found = some a := by
    cases found with
    | none => cases h
    | some b => exact congrArg some (Except.ok.inj h)
  constructor
  · rw [utf8_of_fromUtf8 (hread hsender)]
    exact length_le_of_decodeVariableData (hread hsent)
  · rw [utf8_of_fromUtf8 (hread hreceiver)]
    exact length_le_of_decodeVariableData (hread hreceived)

theorem parse_eq_ok_iff {digest : Bytes → Block 32} {sender receiver : String} :
    (MetaEnvelope.parse digest bytes).map (fun found => (found.sender, found.receiver)) = .ok (sender, receiver) ↔
      ∃ decoded, decodeFull bytes = .ok decoded ∧ decoded.envelope.sender = sender ∧
        decoded.envelope.receiver = receiver := by
  unfold MetaEnvelope.parse decode
  cases hdecode : decodeFull bytes with
  | error e => exact iff_of_false (fun h => by cases h) fun ⟨_, h, _⟩ => by cases h
  | ok decoded =>
    constructor
    · intro h
      cases h
      exact ⟨decoded, rfl, rfl, rfl⟩
    · rintro ⟨found, hfound, rfl, rfl⟩
      cases hfound
      rfl

variable {crypto : Crypto} {ephemeral : Block 32} {kind : MessageType} {sender receiver : String}
  {signingKey encryptionKey receiverKey : Block 32} {packed : Bytes} {digest : Bytes → Block 32}

theorem isTsp_pack_iff
    (hpack : crypto.pack ephemeral payload kind sender receiver signingKey encryptionKey receiverKey = .ok packed) :
    isTsp packed = true ↔ (new kind sender receiver).body.length / 3 % 2 ^ 32 < 4096 := by
  obtain ⟨bytes, rest, hencode, rfl⟩ := pack_starts hpack
  cases (encode_eq _).symm.trans hencode
  rw [append_assoc]
  exact isTsp_encodeCount (Nat.mod_lt _ (by decide)) _

/-- A packed message is taken for a TSP message, and its envelope gives the two VIDs, exactly when they
take fewer than 4091 quadlets, so that the envelope has the short count code. -/
theorem pack_classified_iff
    (hpack : crypto.pack ephemeral payload kind sender receiver signingKey encryptionKey receiverKey = .ok packed) :
    (isTsp packed = true ∧ (MetaEnvelope.parse digest packed).map (fun found => (found.sender, found.receiver)) =
        .ok (sender, receiver)) ↔
      ((utf8 sender).length + 2) / 3 + ((utf8 receiver).length + 2) / 3 < 4091 := by
  obtain ⟨headers, hquads, htwo_le, hle_four, hshort⟩ := envelope_quadlets (new kind sender receiver)
  rw [isTsp_pack_iff hpack, parse_eq_ok_iff, hquads]
  obtain ⟨bytes, rest, hencode, rfl⟩ := pack_starts hpack
  simp only [new] at hshort ⊢
  constructor
  · rintro ⟨hcount, decoded, hdecode, rfl, rfl⟩
    obtain ⟨hsender, hreceiver⟩ := length_le_of_decodeFull hdecode
    unfold maxVariableData at hsender hreceiver
    by_contra hlong
    -- the count of VIDs that can be read does not overflow, and two short headers leave it too large
    by_cases hboth : ((utf8 decoded.envelope.sender).length + 2) / 3 < 4096 ∧
        ((utf8 decoded.envelope.receiver).length + 2) / 3 < 4096
    · have htwo := hshort hboth.1 hboth.2
      omega
    · omega
  · intro hfits
    have htwo := hshort (by omega) (by omega)
    have hsender : (utf8 sender).length ≤ maxVariableData := by unfold maxVariableData; omega
    have hreceiver : (utf8 receiver).length ≤ maxVariableData := by unfold maxVariableData; omega
    have hdecode := decodeFull_encode hencode hsender hreceiver (Slice.at_self bytes rest)
    exact ⟨by omega, _, hdecode, rfl, rfl⟩

theorem pack_plain (ephemeral : Block 32) (payload : Bytes) (kind : MessageType) (sender receiver : String)
    (signingKey encryptionKey receiverKey : Block 32) :
    ∃ packed, Crypto.plain.pack ephemeral payload kind sender receiver signingKey encryptionKey receiverKey =
      .ok packed := by
  unfold Crypto.pack Crypto.packWithHops
  rw [encode_eq]
  exact ⟨_, rfl⟩

theorem pack_classified_direct :
    ∃ packed,
      Crypto.plain.pack ⟨replicate 32 1, rfl⟩ [1, 2, 3] .direct "did:web:alice" "did:web:bob"
        ⟨replicate 32 2, rfl⟩ ⟨replicate 32 3, rfl⟩ ⟨replicate 32 4, rfl⟩ = .ok packed ∧
      ((isTsp packed = true ∧ (MetaEnvelope.parse (fun _ => ⟨replicate 32 0, rfl⟩) packed).map
          (fun found => (found.sender, found.receiver)) = .ok ("did:web:alice", "did:web:bob")) ↔
        ((utf8 "did:web:alice").length + 2) / 3 + ((utf8 "did:web:bob").length + 2) / 3 < 4091) := by
  obtain ⟨packed, hpack⟩ := pack_plain ⟨replicate 32 1, rfl⟩ [1, 2, 3] .direct "did:web:alice" "did:web:bob"
    ⟨replicate 32 2, rfl⟩ ⟨replicate 32 3, rfl⟩ ⟨replicate 32 4, rfl⟩
  exact ⟨packed, hpack, pack_classified_iff hpack⟩

/-- A message from a VID of 12288 characters starts with the long count code and is not taken for one. -/
theorem isTsp_long_sender :
    ¬∀ (sender : String) (packed : Bytes),
      Crypto.plain.pack ⟨replicate 32 1, rfl⟩ [1, 2, 3] .direct sender "did:web:bob"
        ⟨replicate 32 2, rfl⟩ ⟨replicate 32 3, rfl⟩ ⟨replicate 32 4, rfl⟩ = .ok packed →
      isTsp packed = true ∧
        (MetaEnvelope.parse (fun _ => ⟨replicate 32 0, rfl⟩) packed).map
          (fun found => (found.sender, found.receiver)) = .ok (sender, "did:web:bob") := by
  intro hall
  obtain ⟨sender, hlength⟩ : ∃ sender, (utf8 sender).length = 12288 := by
    refine ⟨String.ofList (replicate 12288 'a'), ?_⟩
    have hsize : 'a'.utf8Size = 1 := rfl
    rw [length_utf8_replicate, hsize, Nat.mul_one]
  have hreceiver : (utf8 "did:web:bob").length = 11 := by decide +kernel
  obtain ⟨packed, hpack⟩ := pack_plain ⟨replicate 32 1, rfl⟩ [1, 2, 3] .direct sender "did:web:bob"
    ⟨replicate 32 2, rfl⟩ ⟨replicate 32 3, rfl⟩ ⟨replicate 32 4, rfl⟩
  have hclassified := (isTsp_pack_iff hpack).1 (hall sender packed hpack).1
  obtain ⟨headers, hquads, htwo_le, hle_four, -⟩ := envelope_quadlets (new .direct sender "did:web:bob")
  simp only [new] at hquads hclassified
  rw [hquads, hlength, hreceiver] at hclassified
  omega

end AffinidiTdk.Tsp
