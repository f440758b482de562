/-
Packing and unpacking a message. Every envelope is opened to the payload it holds; which format that payload is taken
for is read off a few names at the top level of its JSON, where a message carries its extra headers.
-/
import AffinidiTdk.Didcomm.Unpack

namespace AffinidiTdk.Didcomm

open List Json.Compact Message UnpackResult
open Fallible

/-! ## When a payload reads as its message -/

/-- The message is written to a text that is read again as the same message: nested no deeper than JSON is read, with
floats that are read as they are written, and without a null as the JSON data of an attachment. -/
structure Survives (reader : Json.Reader) (message : Message) : Prop where
  nesting : message.toJson.nesting ≤ 127
  floats : ∀ value ∈ message.values, ∀ text ∈ value.floats, reader.reread text = text
  attachments : ∀ attachment ∈ message.attachments.getD [], attachment.json ≠ some .null

/-- An extra header of that name. -/
def Message.HasHeader (message : Message) (name : String) : Prop := name ∈ message.extra.map Prod.fst

/-- The headers that a signed message is recognised by. -/
def Message.LooksSigned (message : Message) : Prop := message.HasHeader "payload" ∧ message.HasHeader "signatures"

/-- The headers that an encrypted message is recognised by. -/
def Message.LooksEncrypted (message : Message) : Prop := message.HasHeader "ciphertext" ∧
    message.HasHeader "recipients"

section

variable {reader : Json.Reader} {others : Codec} {message : Message}

variable {f : String → String}

theorem isSome_get?_header {name : String} (hname : name ∉ fieldNames) :
    ((message.toJson.mapFloats f).get? name).isSome = true ↔ message.HasHeader name := by
  have hfields : (members message.fields).lookup name = none := by
    refine lookup_eq_none_iff.2 fun field hfield => bne_iff_ne.2 ?_
    rintro rfl
    exact hname ((keys_members_sublist message.fields).subset (mem_map_of_mem hfield))
  have hlookup : (members message.fields ++ message.extra).lookup name = message.extra.lookup name := by
    rw [lookup_append, hfields, Option.none_or]
  rw [Json.get?_mapFloats, Option.isSome_map]
  show ((members message.fields ++ message.extra).lookup name).isSome = true ↔ _
  rw [hlookup, HasHeader, mem_map]
  constructor
  · intro h
    obtain ⟨value, hvalue⟩ := Option.isSome_iff_exists.1 h
    exact ⟨(name, value), Json.Fields.mem_of_lookup hvalue, rfl⟩
  · rintro ⟨header, hheader, rfl⟩
    refine Option.isSome_iff_ne_none.2 fun hnone => ?_
    exact absurd rfl (bne_iff_ne.1 (lookup_eq_none_iff.1 hnone header hheader))

theorem isJws_toJson : isJws (message.toJson.mapFloats f) = true ↔ message.LooksSigned := by
  rw [isJws, Bool.and_eq_true, isSome_get?_header (by decide), isSome_get?_header (by decide)]
  rfl

theorem isJwe_toJson : isJwe (message.toJson.mapFloats f) = true ↔ message.LooksEncrypted := by
  rw [isJwe, Bool.and_eq_true, isSome_get?_header (by decide), isSome_get?_header (by decide)]
  rfl

variable (hreader : reader.Lawful 127) (hwell : message.WellTyped reader.isFloat) (hseparate : message.Separate)

include hreader hwell hseparate

theorem parse_toJson (h : message.toJson.nesting ≤ 127) :
    reader.parse message.toJson.toText = .ok (message.toJson.mapFloats reader.reread) :=
  hreader.parse_toText (hwell.valid hseparate) h

theorem messageFromJson_eq_iff :
    messageFromJson (wireCodec reader others) (utf8 message.toJson.toText) = .ok message ↔
      Survives reader message := by
  have hread : messageFromJson (wireCodec reader others) (utf8 message.toJson.toText) =
      invalid "invalid message" (reader.parse message.toJson.toText >>= ofJson) := by
    rw [messageFromJson, wireCodec_message]
  rw [hread, invalid_eq_ok_iff]
  by_cases h : message.toJson.nesting ≤ 127
  · rw [parse_toJson hreader hwell hseparate h, ok_bind, ofJson_toJson hwell hseparate, Except.ok.injEq,
      reread_eq_self_iff]
    exact ⟨fun hand => ⟨h, hand.1, hand.2⟩, fun hsurvives => ⟨hsurvives.floats, hsurvives.attachments⟩⟩
  · obtain ⟨e, he⟩ := hreader.parse_deep (hwell.valid hseparate) (Nat.lt_of_not_le h)
    rw [he]
    exact ⟨fun hok => (by cases hok), fun hsurvives => absurd hsurvives.nesting h⟩

theorem innerIsJws_iff (h : message.toJson.nesting ≤ 127) :
    innerIsJws (wireCodec reader others) (utf8 message.toJson.toText) = true ↔ message.LooksSigned := by
  have hslice : (wireCodec reader others).fromSlice (utf8 message.toJson.toText) =
      .ok (message.toJson.mapFloats reader.reread) := by
    rw [wireCodec_fromSlice, parse_toJson hreader hwell hseparate h]
  rw [innerIsJws, hslice]
  exact isJws_toJson

theorem openPayload_eq_iff {verify : String → Bytes → Except DIDCommError VerifiedJws} {header : ProtectedHeader}
    {authenticated legacyKekUsed : Bool} {senderKid : Option String} {recipientKid : String}
    {signerPublic : Option Bytes} : openPayload (wireCodec reader others) verify
    ⟨utf8 message.toJson.toText, header, authenticated, senderKid, recipientKid, legacyKekUsed⟩ signerPublic =
    .ok (.encrypted message authenticated senderKid recipientKid legacyKekUsed false none) ↔
    Survives reader message ∧ ¬message.LooksSigned := by
  unfold openPayload
  by_cases hjws : innerIsJws (wireCodec reader others) (utf8 message.toJson.toText) = true
  · simp only [hjws, if_true, bind_eq_ok_iff, pure_eq_ok_iff, encrypted.injEq]
    constructor
    · rintro ⟨_, _, _, _, _, _, _, _, _, _, _, _, _, ⟨⟩, _⟩
    · rintro ⟨hsurvives, hlooks⟩
      exact absurd ((innerIsJws_iff hreader hwell hseparate hsurvives.nesting).1 hjws) hlooks
  · simp only [hjws, if_false, bind_eq_ok_iff, pure_eq_ok_iff, encrypted.injEq, Bool.false_eq_true,
      and_true]
    constructor
    · rintro ⟨read, hread, rfl⟩
      have hsurvives := (messageFromJson_eq_iff hreader hwell hseparate).1 hread
      exact ⟨hsurvives, fun hlooks => hjws ((innerIsJws_iff hreader hwell hseparate hsurvives.nesting).2 hlooks)⟩
    · rintro ⟨hsurvives, -⟩
      exact ⟨message, (messageFromJson_eq_iff hreader hwell hseparate).2 hsurvives, rfl⟩

end

/-! ## Signatures -/

section

variable {Priv Pub : Type} {prims : Primitives Priv Pub} {reader : Json.Reader} (others : Codec)

theorem verifyEd25519_sign (hprims : prims.Lawful) (hreader : reader.Lawful 127) (payload : Bytes)
    (signerKid : String) (privateKey : Bytes) : ∃ packed value, signEd25519 prims payload signerKid privateKey =
    .ok packed ∧ reader.parse packed = .ok value ∧ isJwe value = false ∧ isJws value = true ∧ verifyEd25519 prims
    (wireCodec reader others) packed (prims.ed25519Public privateKey) = .ok ⟨payload, some signerKid⟩ := by
  obtain ⟨header, hheader⟩ : ∃ header : JwsProtectedHeader,
    header = ⟨some "application/didcomm-signed+json", "EdDSA", some signerKid, none⟩ := ⟨_, rfl⟩
  have hjwk : header.jwk = none := by rw [hheader]
  have halg : header.alg = "EdDSA" := by rw [hheader]
  have hkid : header.kid = some signerKid := by rw [hheader]
  obtain ⟨headerB64, hheaderB64⟩ : ∃ text, text = encodeB64 (utf8 header.toJson.toText) := ⟨_, rfl⟩
  obtain ⟨sig, hsig⟩ : ∃ sig, sig = prims.sign privateKey (utf8 (headerB64 ++ "." ++ encodeB64 payload)) := ⟨_, rfl⟩
  obtain ⟨jws, hjws⟩ : ∃ jws : Jws, jws = ⟨encodeB64 payload, [⟨headerB64, none, encodeB64 sig⟩]⟩ := ⟨_, rfl⟩
  have hparse : reader.parse jws.toJson.toText = .ok jws.toJson := by
    rw [hjws]
    exact hreader.parse_plain ((Jws.plain _ _ _).mono (by decide))
  have hof : Jws.ofJson jws.toJson = .ok jws := by
    rw [hjws]
    exact Jws.ofJson_toJson _ _ _
  have hslice : (wireCodec reader others).fromSlice (utf8 header.toJson.toText) = .ok header.toJson := by
    rw [wireCodec_fromSlice, hreader.parse_plain ((JwsProtectedHeader.plain hjwk).mono (by decide))]
  have hbase : ∀ bytes, (wireCodec reader others).base64 (encodeB64 bytes) = .ok bytes := decodeB64_encodeB64
  have hverify : prims.verify (utf8 (headerB64 ++ "." ++ encodeB64 payload)) sig (prims.ed25519Public privateKey) =
      .ok () := by
    rw [hsig]
    exact hprims.verify_sign _ _
  have hlength : sig.length = 64 := by
    rw [hsig]
    exact hprims.length_sign _ _
  refine ⟨jws.toJson.toText, jws.toJson, ?_, hparse, rfl, rfl, ?_⟩
  · rw [hjws, hsig, hheaderB64, hheader]
    rfl
  · have hsignatures : jws.signatures = [⟨headerB64, none, encodeB64 sig⟩] := by rw [hjws]
    have hpayload : jws.payload = encodeB64 payload := by rw [hjws]
    unfold verifyEd25519
    simp only [bind_eq_ok_iff, invalid_eq_ok_iff]
    refine ⟨jws, ⟨jws.toJson, hparse, hof⟩, ?_⟩
    simp only [hsignatures, hpayload, bind_eq_ok_iff, invalid_eq_ok_iff, guard_eq_ok_iff, mapError_eq_ok_iff,
      pure_eq_ok_iff]
    refine ⟨utf8 header.toJson.toText, ?_, header, ⟨header.toJson, hslice, header.ofJson_toJson hjwk⟩,
      not_not.2 halg, sig, hbase _, not_not.2 hlength, (), hverify, payload, hbase _, ?_⟩
    · rw [hheaderB64]
      exact hbase _
    · rw [hkid]
      rfl

/-! ## Packing and unpacking -/

variable (prims) in
/-- `unpack` with the decoders and the cryptography of the crate. -/
def wireUnpack (reader : Json.Reader) (packed : String) (recipientKid : Option String)
    (recipientPrivate : Option Priv)
    (senderPublic : Option Pub) (signerPublic : Option Bytes) : Except DIDCommError UnpackResult :=
  unpack (wireCodec reader others) (wireCrypto prims) (verifyEd25519 prims (wireCodec reader others)) packed
    recipientKid recipientPrivate senderPublic signerPublic

variable (draws : Draws prims) {sender : Priv} (addressees : Addressees prims sender) (message : Message)

/-- Every recipient unpacks the message from the sender that was packed with authcrypt. -/
def AuthcryptComesBack (reader : Json.Reader) (senderKid : String) : Prop :=
  ∃ packed, packEncryptedAuthcrypt draws message senderKid sender addressees.publics = .ok packed ∧
    ∀ key ∈ addressees.keys, ∀ signerPublic,
      wireUnpack prims others reader packed (some key.1) (some key.2) (some (prims.publicKey sender)) signerPublic =
        .ok (.encrypted message true (some senderKid) key.1 false false none)

def AnoncryptComesBack (reader : Json.Reader) : Prop :=
  ∃ packed, packEncryptedAnoncrypt draws message addressees.publics = .ok packed ∧
    ∀ key ∈ addressees.keys, ∀ senderPublic signerPublic,
      wireUnpack prims others reader packed (some key.1) (some key.2) senderPublic signerPublic =
        .ok (.encrypted message false none key.1 false false none)

variable (prims) in
def SignedComesBack (reader : Json.Reader) (signerKid : String) (privateKey : Bytes) : Prop :=
  ∃ packed, packSigned prims message signerKid privateKey = .ok packed ∧
    ∀ recipientKid recipientPrivate senderPublic,
      wireUnpack prims others reader packed recipientKid recipientPrivate senderPublic
        (some (prims.ed25519Public privateKey)) = .ok (.signed message (some signerKid))

variable (prims) in
def PlaintextComesBack (reader : Json.Reader) : Prop :=
  ∃ packed, packPlaintext message = .ok packed ∧
    ∀ recipientKid recipientPrivate senderPublic signerPublic,
      wireUnpack prims others reader packed recipientKid recipientPrivate senderPublic signerPublic =
        .ok (.plaintext message)

/-- The message was signed, and the signed message encrypted with authcrypt. -/
def SignedAuthcryptComesBack (reader : Json.Reader) (senderKid signerKid : String) (privateKey : Bytes) : Prop :=
  ∃ jws packed, packSigned prims message signerKid privateKey = .ok jws ∧
    authcrypt draws (utf8 jws) senderKid sender addressees.publics = .ok packed ∧
    ∀ key ∈ addressees.keys,
      wireUnpack prims others reader packed (some key.1) (some key.2) (some (prims.publicKey sender))
          (some (prims.ed25519Public privateKey)) =
        .ok (.encrypted message true (some senderKid) key.1 false true (some signerKid))

theorem wireUnpack_jwe {packed kid : String} {value : Json} (hparse : reader.parse packed = .ok value)
    (hjwe : isJwe value = true) {priv : Priv} {senderPublic : Option Pub} {signerPublic : Option Bytes}
    {decrypted : DecryptedJwe}
    (hdecrypt : decrypt (wireCodec reader others) (wireCrypto prims) packed kid priv senderPublic = .ok decrypted) :
    wireUnpack prims others reader packed (some kid) (some priv) senderPublic signerPublic =
      openPayload (wireCodec reader others)
        (verifyEd25519 prims (wireCodec reader others)) decrypted signerPublic := by
  have hvalue : (wireCodec reader others).fromStr packed = .ok value := hparse
  unfold wireUnpack unpack
  simp only [hvalue, invalid, mapError_ok, ok_bind, hjwe, if_true, require, hdecrypt]

variable {others draws addressees message} (hprims : prims.Lawful) (hreader : reader.Lawful 127)
  (hwell : message.WellTyped reader.isFloat) (hseparate : message.Separate)

include hprims hreader hwell hseparate

variable {senderKid : String}

theorem authcrypt_comesBack_iff : AuthcryptComesBack others draws addressees message reader senderKid ↔ senderKid ≠
    "" ∧ Survives reader message ∧ ¬message.LooksSigned := by
  by_cases hkid : senderKid = ""
  · subst hkid
    constructor
    · rintro ⟨packed, hpack, -⟩
      rw [packEncryptedAuthcrypt, authcrypt_nil_kid] at hpack
      cases hpack
    · exact fun h => absurd rfl h.1
  obtain ⟨packed, value, header, hpack, hparse, hjwe, hopen⟩ :=
    decrypt_authcrypt others draws hprims hreader addressees
    hkid (utf8 message.toJson.toText)
  have hunpack : ∀ key ∈ addressees.keys, ∀ signerPublic,
      wireUnpack prims others reader packed (some key.1) (some key.2) (some (prims.publicKey sender)) signerPublic =
        .ok (.encrypted message true (some senderKid) key.1 false false none) ↔
      Survives reader message ∧ ¬message.LooksSigned := by
    intro key hkey signerPublic
    rw [wireUnpack_jwe others hparse hjwe (hopen key hkey)]
    exact openPayload_eq_iff hreader hwell hseparate
  constructor
  · rintro ⟨packed', hpack', hback⟩
    obtain rfl : packed' = packed := Except.ok.inj (hpack'.symm.trans hpack)
    obtain ⟨key, hkey⟩ := exists_mem_of_ne_nil _ addressees.ne_nil
    exact ⟨hkid, (hunpack key hkey none).1 (hback key hkey none)⟩
  · rintro ⟨-, hmessage⟩
    exact ⟨packed, hpack, fun key hkey signerPublic => (hunpack key hkey signerPublic).2 hmessage⟩

theorem anoncrypt_comesBack_iff :
    AnoncryptComesBack others draws addressees message reader ↔ Survives reader message ∧ ¬message.LooksSigned := by
  have hopen := decrypt_anoncrypt others draws hprims hreader addressees (utf8 message.toJson.toText)
  constructor
  · rintro ⟨packed, hpack, hback⟩
    obtain ⟨packed', value, header, hpack', hparse, hjwe, hdecrypt⟩ := hopen none
    obtain rfl : packed' = packed := Except.ok.inj (hpack'.symm.trans hpack)
    obtain ⟨key, hkey⟩ := exists_mem_of_ne_nil _ addressees.ne_nil
    have hkeyBack := hback key hkey none none
    rw [wireUnpack_jwe others hparse hjwe (hdecrypt key hkey)] at hkeyBack
    exact (openPayload_eq_iff hreader hwell hseparate).1 hkeyBack
  · intro hmessage
    obtain ⟨packed, value, header, hpack, -⟩ := hopen none
    refine ⟨packed, hpack, fun key hkey senderPublic signerPublic => ?_⟩
    obtain ⟨packed', value', header', hpack', hparse, hjwe, hdecrypt⟩ := hopen senderPublic
    obtain rfl : packed' = packed := Except.ok.inj (hpack'.symm.trans hpack)
    rw [wireUnpack_jwe others hparse hjwe (hdecrypt key hkey)]
    exact (openPayload_eq_iff hreader hwell hseparate).2 hmessage

variable {signerKid : String} {privateKey : Bytes}

theorem signed_comesBack_iff : SignedComesBack prims others message reader signerKid privateKey ↔
    Survives reader message := by
  obtain ⟨packed, value, hsign, hparse, hjwe, hjws, hverify⟩ := verifyEd25519_sign others hprims hreader
    (utf8 message.toJson.toText) signerKid privateKey
  have hunpack : ∀ recipientKid recipientPrivate senderPublic,
      wireUnpack prims others reader packed recipientKid recipientPrivate senderPublic
        (some (prims.ed25519Public privateKey)) = .ok (.signed message (some signerKid)) ↔
          Survives reader message := by
    intro recipientKid recipientPrivate senderPublic
    have hvalue : (wireCodec reader others).fromStr packed = .ok value := hparse
    unfold wireUnpack unpack
    simp only [hvalue, invalid, mapError_ok, ok_bind, hjwe, if_false, Bool.false_eq_true, hjws, if_true, require,
      hverify, bind_eq_ok_iff, pure_eq_ok_iff, signed.injEq, and_true, exists_eq_right]
    exact messageFromJson_eq_iff hreader hwell hseparate
  constructor
  · rintro ⟨packed', hpack', hback⟩
    obtain rfl : packed' = packed := Except.ok.inj (hpack'.symm.trans hsign)
    exact (hunpack none none none).1 (hback none none none)
  · exact fun hsurvives => ⟨packed, hsign, fun kid priv pub => (hunpack kid priv pub).2 hsurvives⟩

omit hprims in
theorem plaintext_comesBack_iff :
    PlaintextComesBack prims others message reader ↔
      Survives reader message ∧ ¬message.LooksSigned ∧ ¬message.LooksEncrypted := by
  have hvalue : message.toJson.nesting ≤ 127 → (wireCodec reader others).fromStr message.toJson.toText =
      .ok (message.toJson.mapFloats reader.reread) := parse_toJson hreader hwell hseparate
  have htype : ((message.toJson.mapFloats reader.reread).get? "type").isSome = true := by
    rw [get?_toJson (o := some (.str message.typ)) hseparate (by simp [fields])]
    rfl
  constructor
  · rintro ⟨packed, hpack, hback⟩
    obtain rfl : message.toJson.toText = packed := Except.ok.inj hpack
    have hback := hback none none none none
    have hnesting : message.toJson.nesting ≤ 127 := by
      by_contra hdeep
      obtain ⟨e, he⟩ := hreader.parse_deep (hwell.valid hseparate) (Nat.lt_of_not_le hdeep)
      have hfail : (wireCodec reader others).fromStr message.toJson.toText = .error e := he
      unfold wireUnpack unpack at hback
      rw [hfail] at hback
      cases hback
    unfold wireUnpack unpack at hback
    simp only [hvalue hnesting, invalid, mapError_ok, ok_bind] at hback
    -- without keys only the plaintext branch succeeds
    by_cases hjwe : isJwe (message.toJson.mapFloats reader.reread) = true
    · rw [if_pos hjwe] at hback
      cases hback
    by_cases hjws : isJws (message.toJson.mapFloats reader.reread) = true
    · rw [if_neg hjwe, if_pos hjws] at hback
      cases hback
    rw [if_neg hjwe, if_neg hjws, if_pos htype] at hback
    simp only [bind_eq_ok_iff, pure_eq_ok_iff, plaintext.injEq, exists_eq_right] at hback
    exact ⟨(messageFromJson_eq_iff hreader hwell hseparate).1 hback, fun h => hjws (isJws_toJson.2 h),
      fun h => hjwe (isJwe_toJson.2 h)⟩
  · rintro ⟨hsurvives, hsigned, hencrypted⟩
    refine ⟨_, rfl, fun recipientKid recipientPrivate senderPublic signerPublic => ?_⟩
    have hjwe : ¬isJwe (message.toJson.mapFloats reader.reread) = true := fun h => hencrypted (isJwe_toJson.1 h)
    have hjws : ¬isJws (message.toJson.mapFloats reader.reread) = true := fun h => hsigned (isJws_toJson.1 h)
    unfold wireUnpack unpack
    simp only [hvalue hsurvives.nesting, invalid, mapError_ok, ok_bind, if_neg hjwe, if_neg hjws, if_pos htype,
      bind_eq_ok_iff, pure_eq_ok_iff, plaintext.injEq, exists_eq_right]
    exact (messageFromJson_eq_iff hreader hwell hseparate).2 hsurvives

theorem signedAuthcrypt_comesBack_iff : SignedAuthcryptComesBack others draws addressees message reader senderKid
    signerKid privateKey ↔ senderKid ≠ "" ∧ Survives reader message := by
  obtain ⟨jws, value, hsign, hparse, -, hjws, hverify⟩ := verifyEd25519_sign others hprims hreader
    (utf8 message.toJson.toText) signerKid privateKey
  -- the payload of the envelope is recognised as a signed message
  have hinner : innerIsJws (wireCodec reader others) (utf8 jws) = true := by
    have hslice : (wireCodec reader others).fromSlice (utf8 jws) = .ok value := by
      rw [wireCodec_fromSlice, hparse]
    rw [innerIsJws, hslice]
    exact hjws
  have hpayload : ∀ {header : ProtectedHeader} {kid : String},
      openPayload (wireCodec reader others) (verifyEd25519 prims (wireCodec reader others))
          ⟨utf8 jws, header, true, some senderKid, kid, false⟩ (some (prims.ed25519Public privateKey)) =
        .ok (.encrypted message true (some senderKid) kid false true (some signerKid)) ↔
          Survives reader message := by
    intro header kid
    unfold openPayload
    simp only [hinner, if_true, require, ok_bind, fromUtf8_utf8, hverify, bind_eq_ok_iff, pure_eq_ok_iff,
      encrypted.injEq, and_true, exists_eq_right]
    exact messageFromJson_eq_iff hreader hwell hseparate
  by_cases hkid : senderKid = ""
  · subst hkid
    constructor
    · rintro ⟨_, packed, _, hpack, -⟩
      rw [authcrypt_nil_kid] at hpack
      cases hpack
    · exact fun h => absurd rfl h.1
  obtain ⟨packed, outer, header, hpack, houter, hjwe, hopen⟩ :=
    decrypt_authcrypt others draws hprims hreader addressees
    hkid (utf8 jws)
  constructor
  · rintro ⟨jws', packed', hsign', hpack', hback⟩
    obtain rfl : jws' = jws := Except.ok.inj (hsign'.symm.trans hsign)
    obtain rfl : packed' = packed := Except.ok.inj (hpack'.symm.trans hpack)
    obtain ⟨key, hkey⟩ := exists_mem_of_ne_nil _ addressees.ne_nil
    have hkeyBack := hback key hkey
    rw [wireUnpack_jwe others houter hjwe (hopen key hkey)] at hkeyBack
    exact ⟨hkid, hpayload.1 hkeyBack⟩
  · rintro ⟨-, hsurvives⟩
    refine ⟨jws, packed, hsign, hpack, fun key hkey => ?_⟩
    rw [wireUnpack_jwe others houter hjwe (hopen key hkey)]
    exact hpayload.2 hsurvives

variable (others draws addressees) in
/-- **Unpacking is inverse to packing** exactly for the messages that survive being written as JSON and whose extra
headers are not those by which the format of a text is recognised; the sender has a key id where one is sent. -/
theorem unpack_pack_iff (senderKid signerKid : String) (privateKey : Bytes) :
    (AuthcryptComesBack others draws addressees message reader senderKid ↔
      senderKid ≠ "" ∧ Survives reader message ∧ ¬message.LooksSigned) ∧
    (AnoncryptComesBack others draws addressees message reader ↔ Survives reader message ∧ ¬message.LooksSigned) ∧
    (SignedComesBack prims others message reader signerKid privateKey ↔ Survives reader message) ∧
    (PlaintextComesBack prims others message reader ↔
      Survives reader message ∧ ¬message.LooksSigned ∧ ¬message.LooksEncrypted) ∧
    (SignedAuthcryptComesBack others draws addressees message reader senderKid signerKid privateKey ↔
      senderKid ≠ "" ∧ Survives reader message) :=
  ⟨authcrypt_comesBack_iff hprims hreader hwell hseparate, anoncrypt_comesBack_iff hprims hreader hwell hseparate,
    signed_comesBack_iff hprims hreader hwell hseparate, plaintext_comesBack_iff hreader hwell hseparate,
    signedAuthcrypt_comesBack_iff hprims hreader hwell hseparate⟩

end

/-! ## A greeting and an invoice -/

namespace Greeting

/-- A key is a curve and a number, the same for its two halves. -/
structure Key where
  curve : Curve
  number : UInt8

def fill (n : ℕ) (bytes : Bytes) : Bytes := (bytes ++ List.replicate n 0).take n

theorem length_fill (n : ℕ) (bytes : Bytes) : (fill n bytes).length = n := by
  rw [fill, length_take, length_append, length_replicate]
  omega

/-- A wrapped key stands behind the key that wraps it. -/
def unwrap (kek wrapped : Bytes) : Except String Bytes :=
  if wrapped.take 32 = kek then .ok (wrapped.drop 32) else .error "integrity check failed"

theorem unwrap_append {kek : Bytes} (h : kek.length = 32) (cek : Bytes) : unwrap kek (kek ++ cek) = .ok cek := by
  rw [unwrap, take_left' h, drop_left' h, if_pos rfl]

def prims : Primitives Key Key where
  cbcEncrypt := fun _ _ blocks => blocks.reverse
  cbcDecrypt := fun _ _ blocks => .ok blocks.reverse
  hmacSha512 := fun key data => fill 64 (key ++ data)
  sha256 := fill 32
  publicKey := id
  curve := Key.curve
  x := fun key => fill 32 [key.number]
  y := fun _ => fill 32 []
  fromX25519 := fun bytes => ⟨.x25519, bytes.headD 0⟩
  fromSec1 := fun curve bytes => .ok ⟨curve, bytes.tail.headD 0⟩
  diffieHellman := fun own key =>
    if own.curve = key.curve then .ok [own.number * key.number]
    else .error "curve mismatch between private and public keys"
  wrap := fun kek cek => .ok (kek ++ cek)
  unwrap := unwrap
  sign := fun key data => fill 64 (key ++ data)
  verify := fun data sig key => if sig = fill 64 (key ++ data) then .ok () else .error
    "signature verification failed"
  ed25519Public := id

theorem prims_lawful : prims.Lawful where
  decrypt_encrypt := fun {_ _ blocks} _ _ _ => congrArg Except.ok blocks.reverse_reverse
  length_hmac := fun key data => length_fill 64 (key ++ data)
  length_sha256 := length_fill 32
  x25519 := by
    rintro ⟨curve, number⟩ rfl
    exact ⟨length_fill 32 [number], rfl⟩
  sec1 := fun _ _ => rfl
  agree := by
    intro own key hcurve
    refine ⟨[own.number * key.number], if_pos hcurve, ?_⟩
    rw [UInt8.mul_comm]
    exact if_pos hcurve.symm
  unwrap_wrap := fun kek cek hkek _ => ⟨kek ++ cek, rfl, unwrap_append hkek cek⟩
  length_sign := fun key data => length_fill 64 (key ++ data)
  verify_sign := fun _ _ => if_pos rfl

def draws : Draws prims where
  ephemeral := fun curve => ⟨curve, 9⟩
  cek := List.replicate 64 7
  iv := List.replicate 16 3
  curve_ephemeral := fun _ => rfl
  length_cek := length_replicate
  length_iv := length_replicate

def alice : Key := ⟨.p256, 2⟩

def addressees : Addressees prims alice where
  keys := [("did:x:bob#1", ⟨.p256, 3⟩), ("did:x:carol#1", ⟨.p256, 4⟩)]
  ne_nil := cons_ne_nil _ _
  nodup := by decide
  kid_ne := by decide
  curve_eq := by decide

def message : Message :=
  { id := "1", typ := "greeting", body := .obj [("content", .str "hello")], extra := [("lang", .str "en")] }

theorem message_wellTyped : message.WellTyped IsFloat where
  body := ⟨nodup_singleton _, trivial, trivial⟩
  createdTime := by rintro _ ⟨⟩
  expiresTime := by rintro _ ⟨⟩
  attachments := by rintro _ ⟨⟩
  extra := by
    intro header hheader
    obtain rfl := mem_singleton.1 hheader
    trivial
  names := nodup_singleton _

theorem message_separate : message.Separate := by
  unfold Separate
  decide

theorem message_survives : Survives reader message where
  nesting := by decide +kernel
  floats := fun _ _ _ _ => rfl
  attachments := by rintro _ ⟨⟩

def others : Codec :=
  ⟨fun _ => .error "", fun _ => .error "", fun _ => .error "", fun _ => .error "", fun _ => .error "",
    fun _ => .error "", id⟩

/-- The same message with headers of an own invoice format. -/
def invoice : Message := { message with extra := [("payload", .str "10 EUR"), ("signatures", .arr [])] }

theorem invoice_wellTyped : invoice.WellTyped IsFloat where
  body := message_wellTyped.body
  createdTime := message_wellTyped.createdTime
  expiresTime := message_wellTyped.expiresTime
  attachments := message_wellTyped.attachments
  extra := by
    intro header hheader
    rcases mem_pair.1 hheader with rfl | rfl
    · trivial
    · trivial
  names := by decide

theorem invoice_separate : invoice.Separate := by
  unfold Separate
  decide

theorem invoice_looksSigned : invoice.LooksSigned := by
  unfold LooksSigned HasHeader
  decide

end Greeting

open Greeting in
/-- The greeting comes back in all five forms. -/
theorem greeting_comesBack :
    AuthcryptComesBack others draws addressees message reader "did:x:alice#1" ∧
    AnoncryptComesBack others draws addressees message reader ∧
    SignedComesBack prims others message reader "did:x:alice#2" [1] ∧
    PlaintextComesBack prims others message reader ∧
    SignedAuthcryptComesBack others draws addressees message reader "did:x:alice#1" "did:x:alice#2"
      [1] := by
  obtain ⟨hauthcrypt, hanoncrypt, hsigned, hplaintext, hboth⟩ := unpack_pack_iff others draws addressees prims_lawful
    reader_lawful message_wellTyped message_separate "did:x:alice#1" "did:x:alice#2" [1]
  have hlooksSigned : ¬message.LooksSigned := by
    unfold LooksSigned HasHeader
    decide
  have hlooksEncrypted : ¬message.LooksEncrypted := by
    unfold LooksEncrypted HasHeader
    decide
  exact ⟨hauthcrypt.2 ⟨by decide, message_survives, hlooksSigned⟩, hanoncrypt.2 ⟨message_survives, hlooksSigned⟩,
    hsigned.2 message_survives, hplaintext.2 ⟨message_survives, hlooksSigned, hlooksEncrypted⟩,
    hboth.2 ⟨by decide, message_survives⟩⟩

open Greeting in
/-- The invoice is decrypted and then taken for a signed message. -/
theorem invoice_lost :
    invoice.WellTyped IsFloat ∧ invoice.Separate ∧
      ¬AuthcryptComesBack others draws addressees invoice reader "did:x:alice#1" ∧
      ¬PlaintextComesBack prims others invoice reader := by
  refine ⟨invoice_wellTyped, invoice_separate, fun hback => ?_, fun hback => ?_⟩
  · exact ((authcrypt_comesBack_iff prims_lawful reader_lawful invoice_wellTyped invoice_separate).1
      hback).2.2 invoice_looksSigned
  · exact ((plaintext_comesBack_iff reader_lawful invoice_wellTyped invoice_separate).1
      hback).2.1 invoice_looksSigned

end AffinidiTdk.Didcomm
