/-
Unpacking is inverse to packing. The envelope comes back as it was written, every recipient derives the key that the
sender wrapped for it, and the payload is decrypted at every length; what is left is whether the payload reads as the
message it is.
-/
import AffinidiTdk.Didcomm.Pack

namespace AffinidiTdk.Didcomm

open List Json
open Fallible

/-! ## Structures read again -/

section

variable {reader : Json.Reader} {others : Codec}

@[simp] theorem fromSlice_utf8 (text : String) : fromSlice reader (utf8 text) = reader.parse text := by
  rw [fromSlice, fromUtf8_utf8]

theorem wireCodec_fromSlice (text : String) : (wireCodec reader others).fromSlice (utf8 text) = reader.parse text :=
  fromSlice_utf8 text

theorem wireCodec_message (text : String) :
    (wireCodec reader others).message (utf8 text) = (reader.parse text >>= Message.ofJson) :=
  congrArg (· >>= Message.ofJson) (fromSlice_utf8 text)

variable {value : Json} {key : String}

theorem requireStr_eq {s : String} (h : value.get? key = some (.str s)) : requireStr value key = .ok s := by
  rw [requireStr, h]

variable {o : Option String}

theorem optionalStr_eq (h : value.get? key = o.map .str) : optionalStr value key = .ok o := by
  rw [optionalStr, h]
  cases o <;> rfl

theorem plain_members {n : ℕ} {fields : List (String × Option Json)} (hnodup : (fields.map Prod.fst).Nodup)
    (h : ∀ field ∈ fields, ∀ value ∈ field.2, Plain n value) : Plain (n + 1) (.obj (members fields)) :=
  plain_obj ((keys_members_sublist fields).nodup hnodup) fun field hfield =>
    h (field.1, some field.2) (mem_members.1 hfield) field.2 rfl

theorem plain_map_str (n : ℕ) (o : Option String) : ∀ value ∈ o.map str, Plain n value := by
  rintro _ h
  obtain ⟨s, -, rfl⟩ := Option.map_eq_some_iff.1 h
  exact plain_str n s

theorem plain_some {n : ℕ} (h : Plain n value) : ∀ other ∈ some value, Plain n other := by
  rintro _ heq
  cases heq
  exact h

theorem Jwe.plain (jwe : Jwe) : Plain 4 jwe.toJson := by
  refine plain_obj (by show ["protected", "recipients", "iv", "ciphertext", "tag"].Nodup; decide) ?_
  have hrecipients : Plain 3 (.arr (jwe.recipients.map Recipient.toJson)) := by
    refine plain_arr fun item hitem => ?_
    obtain ⟨recipient, -, rfl⟩ := mem_map.1 hitem
    refine plain_obj (by show ["header", "encrypted_key"].Nodup; decide) ?_
    simp only [forall_mem_cons]
    refine ⟨plain_obj (nodup_singleton _) ?_, plain_str _ _, by rintro _ ⟨⟩⟩
    simp only [forall_mem_cons]
    exact ⟨plain_str _ _, by rintro _ ⟨⟩⟩
  simp only [forall_mem_cons]
  exact ⟨plain_str _ _, hrecipients, plain_str _ _, plain_str _ _, plain_str _ _, by rintro _ ⟨⟩⟩

theorem mapM_recipients (recipients : List Recipient) :
    (recipients.map Recipient.toJson).mapM Recipient.ofJson = .ok recipients := by
  induction recipients with
  | nil => rfl
  | cons recipient recipients ih =>
    rw [map_cons, mapM_cons, ih]
    rfl

theorem Jwe.ofJson_toJson (jwe : Jwe) : Jwe.ofJson jwe.toJson = .ok jwe := by
  have hrecipients : recipientsOfJson jwe.toJson = .ok jwe.recipients := mapM_recipients jwe.recipients
  unfold Jwe.ofJson
  simp only [bind_eq_ok_iff, pure_eq_ok_iff]
  exact ⟨_, rfl, _, hrecipients, _, rfl, _, rfl, _, rfl, rfl⟩

theorem ProtectedHeader.nodup_fields (header : ProtectedHeader) : (header.fields.map Prod.fst).Nodup := by
  show ["typ", "alg", "enc", "skid", "apu", "apv", "epk"].Nodup
  decide

theorem ProtectedHeader.plain {header : ProtectedHeader} (hepk : Plain 1 header.epk) :
    Plain 2 header.toJson := by
  refine plain_members header.nodup_fields ?_
  simp only [fields, forall_mem_cons]
  exact ⟨plain_map_str _ _, plain_some (plain_str _ _), plain_some (plain_str _ _), plain_map_str _ _,
    plain_map_str _ _, plain_some (plain_str _ _), plain_some hepk, by rintro _ ⟨⟩⟩

theorem ProtectedHeader.ofJson_toJson (header : ProtectedHeader) :
    ProtectedHeader.ofJson header.toJson = .ok header := by
  have hfield : ∀ {key : String} {o : Option Json}, (key, o) ∈ header.fields → header.toJson.get? key = o :=
    fun hmem => lookup_members header.nodup_fields hmem
  have hepk : header.toJson.get? "epk" = some header.epk := hfield (by simp [fields])
  unfold ProtectedHeader.ofJson
  simp only [bind_eq_ok_iff]
  refine ⟨header.typ, optionalStr_eq (hfield ?_), header.alg, requireStr_eq (hfield ?_), header.enc,
    requireStr_eq (hfield ?_), header.skid, optionalStr_eq (hfield ?_), header.apu, optionalStr_eq (hfield ?_),
    header.apv, requireStr_eq (hfield ?_), ?_⟩
  rotate_right
  · rw [hepk]
    rfl
  all_goals simp [fields]

theorem optional_map_str (h : value.get? key = o.map .str) : optional readStr value key = .ok o := by
  rw [optional, h]
  cases o <;> rfl

theorem JwsProtectedHeader.nodup_fields (header : JwsProtectedHeader) : (header.fields.map Prod.fst).Nodup := by
  show ["typ", "alg", "kid", "jwk"].Nodup
  decide

variable {header : JwsProtectedHeader}

theorem JwsProtectedHeader.plain (hjwk : header.jwk = none) : Plain 1 header.toJson := by
  refine plain_members header.nodup_fields ?_
  simp only [fields, forall_mem_cons, hjwk]
  exact ⟨plain_map_str _ _, plain_some (plain_str _ _), plain_map_str _ _, by rintro _ ⟨⟩, by rintro _ ⟨⟩⟩

theorem JwsProtectedHeader.ofJson_toJson (hjwk : header.jwk = none) :
    JwsProtectedHeader.ofJson header.toJson = .ok header := by
  have hfield : ∀ {key : String} {o : Option Json}, (key, o) ∈ header.fields → header.toJson.get? key = o :=
    fun hmem => lookup_members header.nodup_fields hmem
  have hnone : optional .ok header.toJson "jwk" = .ok header.jwk := by
    rw [optional, hfield (o := header.jwk) (by simp [fields]), hjwk]
  unfold JwsProtectedHeader.ofJson
  simp only [bind_eq_ok_iff]
  refine ⟨header.typ, optional_map_str (hfield ?_), header.alg,
    required_eq (hfield (o := some (.str header.alg)) ?_) rfl,
    header.kid, optional_map_str (hfield ?_), header.jwk, hnone, rfl⟩
  all_goals simp [fields]

theorem Jws.plain (payload protectedHeader signature : String) :
    Plain 3 (Jws.toJson ⟨payload, [⟨protectedHeader, none, signature⟩]⟩) := by
  have hsignature : Plain 1 (JwsSignature.toJson ⟨protectedHeader, none, signature⟩) := by
    refine plain_members (by show ["protected", "header", "signature"].Nodup; decide) ?_
    simp only [forall_mem_cons]
    exact ⟨plain_some (plain_str _ _), by rintro _ ⟨⟩, plain_some (plain_str _ _), by rintro _ ⟨⟩⟩
  refine plain_obj (by show ["payload", "signatures"].Nodup; decide) ?_
  simp only [forall_mem_cons]
  refine ⟨plain_str _ _, plain_arr fun item hitem => ?_, by rintro _ ⟨⟩⟩
  obtain rfl := mem_singleton.1 hitem
  exact hsignature

theorem Jws.ofJson_toJson (payload protectedHeader signature : String) :
    Jws.ofJson (Jws.toJson ⟨payload, [⟨protectedHeader, none, signature⟩]⟩) =
      .ok ⟨payload, [⟨protectedHeader, none, signature⟩]⟩ := rfl

end

/-! ## Keys read again -/

section

variable {Priv Pub : Type} {prims : Primitives Priv Pub}

theorem toJwk_plain (pub : Pub) : Plain 1 (toJwk prims pub) := by
  refine plain_members (by show ["crv", "kty", "x", "y"].Nodup; decide) ?_
  simp only [forall_mem_cons]
  refine ⟨plain_some (plain_str _ _), plain_some (plain_str _ _), plain_some (plain_str _ _), ?_,
    by rintro _ ⟨⟩⟩
  split_ifs with h
  · rintro _ ⟨⟩
  · exact plain_some (plain_str _ _)

theorem fromJwk_toJwk (h : prims.Lawful) (pub : Pub) : fromJwk prims (toJwk prims pub) = .ok pub := by
  have hpoint : ∀ c : Curve, c ≠ .x25519 → prims.curve pub = c → ecFromJwk prims c (toJwk prims pub) = .ok pub := by
    rintro _ hne rfl
    have hx : (toJwk prims pub).strField "x" = some (encodeB64 (prims.x pub)) := rfl
    have hy : (toJwk prims pub).strField "y" = some (encodeB64 (prims.y pub)) := by
      rw [toJwk, if_neg hne]
      rfl
    have hbytes : ecPointFromJwk (toJwk prims pub) = .ok (4 :: prims.x pub ++ prims.y pub) := by
      unfold ecPointFromJwk jwkStr
      rw [hx, hy]
      simp only [ok_bind, decodeB64_encodeB64, mapError_ok]
      rfl
    rw [ecFromJwk, hbytes, ok_bind, h.sec1 pub hne, mapError_ok]
  have hcrv : (toJwk prims pub).strField "crv" = some (prims.curve pub).jwkCrv := rfl
  unfold fromJwk
  rw [hcrv]
  cases hcurve : prims.curve pub with
  | x25519 =>
    obtain ⟨hlength, hfrom⟩ := h.x25519 pub hcurve
    have hx : (toJwk prims pub).strField "x" = some (encodeB64 (prims.x pub)) := rfl
    show x25519FromJwk prims (toJwk prims pub) = .ok pub
    unfold x25519FromJwk jwkStr
    rw [hx]
    simp only [ok_bind, decodeB64_encodeB64, mapError_ok, hlength, ne_eq, not_true_eq_false, if_false, hfrom]
    rfl
  | p256 => exact hpoint .p256 (by decide) hcurve
  | k256 => exact hpoint .k256 (by decide) hcurve
  | p384 => exact hpoint .p384 (by decide) hcurve
  | p521 => exact hpoint .p521 (by decide) hcurve

/-! ## The key of one recipient -/

theorem length_concatKdf (h : prims.Lawful) (z alg apu apv : Bytes) :
    (concatKdf prims z alg apu apv).length = 32 := by
  rw [concatKdf, length_take, h.length_sha256]
  rfl

theorem length_concatKdf1pu (h : prims.Lawful) (legacy : Bool) (z alg apu apv ccTag : Bytes) :
    (concatKdf1pu prims legacy z alg apu apv ccTag).length = 32 := by
  by_cases hempty : ccTag = []
  · rw [concatKdf1pu, if_pos hempty, length_concatKdf h]
  · rw [concatKdf1pu, if_neg hempty, length_take, h.length_sha256]
    rfl

variable {ephemeral sender recipient : Priv}

section

variable (h : prims.Lawful)
  (hephemeral : prims.curve (prims.publicKey ephemeral) = prims.curve (prims.publicKey recipient))
include h hephemeral

/-- Both ends of ECDH-1PU derive one key. -/
theorem derive1pu_agree (hsender : prims.curve (prims.publicKey sender) = prims.curve (prims.publicKey recipient))
    (apu apv tag : Bytes) : ∃ kek, deriveSenderKey1pu prims ephemeral sender (prims.publicKey recipient) apu apv
    tag = .ok kek ∧ deriveKey1puRecipient prims false recipient (prims.publicKey sender)
    (prims.publicKey ephemeral) "ECDH-1PU+A256KW" apu apv tag = .ok kek ∧ kek.length = 32 := by
  obtain ⟨ze, hze, hze'⟩ := h.agree ephemeral recipient hephemeral
  obtain ⟨zs, hzs, hzs'⟩ := h.agree sender recipient hsender
  have hlength := length_concatKdf1pu h false (ze ++ zs) (utf8 "ECDH-1PU+A256KW") apu apv tag
  refine ⟨_, ?_, ?_, hlength⟩
  · rw [deriveSenderKey1pu, hze, hzs, ok_bind, ok_bind, toKek, if_pos hlength]
  · rw [deriveKey1puRecipient, hze', hzs', ok_bind, ok_bind, toKek, if_pos hlength]

/-- Both ends of ECDH-ES derive one key. -/
theorem deriveEs_agree (apu apv : Bytes) : ∃ kek, deriveSenderKey prims ephemeral (prims.publicKey recipient) apu
    apv = .ok kek ∧ deriveKeyEsRecipient prims recipient (prims.publicKey ephemeral) "ECDH-ES+A256KW" apu apv =
    .ok kek ∧ kek.length = 32 := by
  obtain ⟨z, hz, hz'⟩ := h.agree ephemeral recipient hephemeral
  have hlength := length_concatKdf h z (utf8 "ECDH-ES+A256KW") apu apv
  refine ⟨_, ?_, ?_, hlength⟩
  · rw [deriveSenderKey, hz, ok_bind, toKek, if_pos hlength]
  · rw [deriveKeyEsRecipient, hz', ok_bind, toKek, if_pos hlength]

end

variable {header : ProtectedHeader}

theorem unwrapKey_1pu {priv : Priv} {senderPub epk : Pub} {apu apv tag wrapped kek cek : Bytes}
    (halg : header.alg = "ECDH-1PU+A256KW")
    (hkek : deriveKey1puRecipient prims false priv senderPub epk "ECDH-1PU+A256KW" apu apv tag = .ok kek)
    (hcek : prims.unwrap kek wrapped = .ok cek) : unwrapKey (wireCrypto prims) header priv (some senderPub) epk apu
    apv tag wrapped = .ok (cek, true, fromUtf8 apu, false) := by
  have hderive : (wireCrypto prims).deriveKey1puRecipient priv senderPub epk "ECDH-1PU+A256KW" apu apv tag =
    .ok kek :=
    hkek
  have hunwrap : (wireCrypto prims).unwrap kek wrapped = .ok cek := hcek
  rw [unwrapKey, if_pos halg]
  simp only [hderive, mapError_ok, ok_bind, hunwrap]
  rfl

theorem unwrapKey_es {priv : Priv} {senderPublic : Option Pub} {epk : Pub} {apu apv tag wrapped kek cek : Bytes}
    (halg : header.alg = "ECDH-ES+A256KW") (hkek : deriveKeyEsRecipient prims priv epk "ECDH-ES+A256KW" apu apv =
    .ok kek) (hcek : prims.unwrap kek wrapped = .ok cek) : unwrapKey (wireCrypto prims) header priv senderPublic
    epk apu apv tag wrapped = .ok (cek, false, none, false) := by
  have hderive : (wireCrypto prims).deriveKeyEsRecipient priv epk "ECDH-ES+A256KW" apu apv = .ok kek := hkek
  have hunwrap : (wireCrypto prims).unwrap kek wrapped = .ok cek := hcek
  have hother : header.alg ≠ "ECDH-1PU+A256KW" := by
    rw [halg]
    decide
  unfold unwrapKey
  rw [if_neg hother, if_pos halg]
  simp only [hderive, mapError_ok, ok_bind, hunwrap]
  rfl

variable (prims) in
theorem exists_recipients {keys : List (String × Priv)} (hnodup : (keys.map Prod.fst).Nodup)
    (wrapKey : String × Pub → Except DIDCommError Recipient) (Opens : Priv → Bytes → Prop)
    (hwrap : ∀ key ∈ keys, ∃ wrapped, wrapKey (key.1, prims.publicKey key.2) = .ok ⟨key.1, encodeB64 wrapped⟩ ∧
    Opens key.2 wrapped) : ∃ recipients, (keys.map fun key => (key.1, prims.publicKey key.2)).mapM wrapKey =
    .ok recipients ∧ ∀ key ∈ keys, ∃ wrapped, recipients.find? (fun recipient => recipient.kid = key.1) =
    some ⟨key.1, encodeB64 wrapped⟩ ∧ Opens key.2 wrapped := by
  induction keys with
  | nil => exact ⟨[], rfl, by rintro _ ⟨⟩⟩
  | cons key keys ih =>
    obtain ⟨hnew, hrest⟩ := nodup_cons.1 hnodup
    obtain ⟨hkey, hkeys⟩ := forall_mem_cons.1 hwrap
    obtain ⟨wrapped, hfirst, hopens⟩ := hkey
    obtain ⟨recipients, hmapM, hfind⟩ := ih hrest hkeys
    refine ⟨⟨key.1, encodeB64 wrapped⟩ :: recipients, ?_, ?_⟩
    · rw [map_cons, mapM_cons, hfirst, hmapM]
      rfl
    · rintro other hmem
      rcases mem_cons.1 hmem with rfl | hmem
      · exact ⟨wrapped, by simp, hopens⟩
      · obtain ⟨wrapped', hfound, hopens'⟩ := hfind other hmem
        refine ⟨wrapped', ?_, hopens'⟩
        have hne : key.1 ≠ other.1 := by
          intro heq
          exact hnew (heq ▸ mem_map_of_mem hmem)
        rw [find?_cons_of_neg (by simpa using hne)]
        exact hfound

/-! ## The envelope opened -/

variable {reader : Json.Reader} {others : Codec} {draws : Draws prims}

/-- The recipients of a message with their private keys: at least one, under different key ids, on the sender's
curve. -/
structure Addressees (prims : Primitives Priv Pub) (sender : Priv) where
  keys : List (String × Priv)
  ne_nil : keys ≠ []
  nodup : (keys.map Prod.fst).Nodup
  kid_ne : ∀ key ∈ keys, key.1 ≠ ""
  curve_eq : ∀ key ∈ keys, prims.curve (prims.publicKey key.2) = prims.curve (prims.publicKey sender)

def Addressees.publics {sender : Priv} (addressees : Addressees prims sender) : List (String × Pub) :=
  addressees.keys.map fun key => (key.1, prims.publicKey key.2)

variable (others draws) in
/-- A sealed plaintext is opened by every recipient for whom the key is unwrapped as it was wrapped. -/
theorem decrypt_sealEnvelope (hprims : prims.Lawful) (hreader : reader.Lawful 127) (plaintext : Bytes)
    (header : ProtectedHeader) (ephemeral : Priv) (apu apv : Bytes) (keys : List (String × Priv))
    (derive : Bytes → Pub → Except String Bytes) (senderPublic : Option Pub) (authenticated : Bool)
    (senderKid : Option String) (hepk : header.epk = toJwk prims (prims.publicKey ephemeral))
    (hapu : decodeApu (wireCodec reader others) header = .ok apu) (hapv : header.apv = encodeB64 apv)
    (hnodup : (keys.map Prod.fst).Nodup)
    (hderive : ∀ key ∈ keys, ∀ tag, ∃ kek, derive tag (prims.publicKey key.2) = .ok kek ∧ kek.length = 32 ∧
    ∀ wrapped, prims.unwrap kek wrapped = .ok draws.cek → unwrapKey (wireCrypto prims) header key.2 senderPublic
    (prims.publicKey ephemeral) apu apv tag wrapped = .ok (draws.cek, authenticated, senderKid, false)) : ∃ packed
    value, sealEnvelope draws plaintext header derive (keys.map fun key => (key.1, prims.publicKey key.2)) =
    .ok packed ∧ reader.parse packed = .ok value ∧ isJwe value = true ∧ ∀ key ∈ keys,
    decrypt (wireCodec reader others) (wireCrypto prims) packed key.1 key.2 senderPublic =
    .ok ⟨plaintext, header, authenticated, senderKid, key.1, false⟩ := by
  obtain ⟨protectedB64, hprotected⟩ : ∃ text, text = encodeB64 (utf8 header.toJson.toText) := ⟨_, rfl⟩
  obtain ⟨sealed, hsealed⟩ : ∃ s, s =
    contentEncrypt prims.toCbcHmac plaintext draws.cek draws.iv (utf8 protectedB64) :=
    ⟨_, rfl⟩
  have htag : sealed.2.length = 32 := by
    rw [hsealed]
    exact length_contentTag hprims.toLawful _ _ _ _
  -- each recipient's entry holds the key under a key that it derives
  have hwrap : ∀ key ∈ keys, ∃ wrapped,
      wrapFor prims (derive sealed.2) draws.cek (key.1, prims.publicKey key.2) = .ok ⟨key.1, encodeB64 wrapped⟩ ∧
      unwrapKey (wireCrypto prims) header key.2 senderPublic (prims.publicKey ephemeral) apu apv sealed.2 wrapped =
        .ok (draws.cek, authenticated, senderKid, false) := by
    rintro key hkey
    obtain ⟨kek, hkek, hlength, hopens⟩ := hderive key hkey sealed.2
    obtain ⟨wrapped, hwrap, hunwrap⟩ := hprims.unwrap_wrap kek draws.cek hlength draws.length_cek
    refine ⟨wrapped, ?_, hopens wrapped hunwrap⟩
    rw [wrapFor]
    simp only [hkek, hwrap, mapError_ok, ok_bind]
    rfl
  obtain ⟨recipients, hmapM, hfind⟩ := exists_recipients prims hnodup (wrapFor prims (derive sealed.2) draws.cek)
    (fun priv wrapped =>
      unwrapKey (wireCrypto prims) header priv senderPublic (prims.publicKey ephemeral) apu apv sealed.2 wrapped =
        .ok (draws.cek, authenticated, senderKid, false)) hwrap
  obtain ⟨jwe, hjwe⟩ : ∃ jwe : Jwe, jwe = ⟨protectedB64, recipients, encodeB64 draws.iv, encodeB64 sealed.1,
    encodeB64 sealed.2⟩ := ⟨_, rfl⟩
  have hparse : reader.parse jwe.toJson.toText = .ok jwe.toJson := hreader.parse_plain (jwe.plain.mono (by decide))
  have hheader : reader.parse header.toJson.toText = .ok header.toJson := by
    refine hreader.parse_plain ((ProtectedHeader.plain ?_).mono (by decide))
    rw [hepk]
    exact toJwk_plain _
  refine ⟨jwe.toJson.toText, jwe.toJson, ?_, hparse, rfl, fun key hkey => ?_⟩
  · unfold sealEnvelope
    simp only [← hprotected, ← hsealed, hmapM, ok_bind, hjwe]
    rfl
  · obtain ⟨wrapped, hfound, hunwrapKey⟩ := hfind key hkey
    have hfound : jwe.recipients.find? (fun r => decide (r.kid = key.1)) = some ⟨key.1, encodeB64 wrapped⟩ := by
      rw [hjwe]
      exact hfound
    have hplaintext : (wireCrypto prims).decrypt sealed.1 draws.cek draws.iv protectedB64 sealed.2 =
      .ok plaintext := by
      rw [hsealed]
      exact contentDecrypt_encrypt hprims.toLawful draws.length_cek draws.length_iv plaintext _
    have hbase : ∀ bytes, (wireCodec reader others).base64 (encodeB64 bytes) = .ok bytes := decodeB64_encodeB64
    have hslice : (wireCodec reader others).fromSlice (utf8 header.toJson.toText) = .ok header.toJson := by
      rw [wireCodec_fromSlice, hheader]
    have hepk' : (wireCrypto prims).publicFromJwk header.epk = .ok (prims.publicKey ephemeral) := by
      rw [hepk]
      exact fromJwk_toJwk hprims _
    unfold decrypt
    simp only [bind_eq_ok_iff, invalid_eq_ok_iff, guard_eq_ok_iff]
    refine ⟨jwe, ⟨jwe.toJson, hparse, jwe.ofJson_toJson⟩, utf8 header.toJson.toText, ?_, header,
      ⟨header.toJson, hslice, header.ofJson_toJson⟩, draws.iv, ?_, ?_, sealed.1, ?_, sealed.2, ?_, ?_, ?_⟩
    · rw [hjwe, hprotected]
      exact hbase _
    · rw [hjwe]
      exact hbase _
    · exact not_not.2 draws.length_iv
    · rw [hjwe]
      exact hbase _
    · rw [hjwe]
      exact hbase _
    · exact not_not.2 htag
    · simp only [hfound, bind_eq_ok_iff, invalid_eq_ok_iff, guard_eq_ok_iff, mapError_eq_ok_iff, pure_eq_ok_iff]
      refine ⟨wrapped, hbase _, _, hepk', apu, hapu, apv, ?_, _, hunwrapKey, not_not.2 draws.length_cek,
        plaintext, ?_,
        rfl⟩
      · rw [hapv]
        exact hbase _
      · rw [hjwe]
        exact hplaintext

theorem checkRecipients_publics (addressees : Addressees prims sender) :
    checkRecipients prims (prims.curve (prims.publicKey sender)) addressees.publics = .ok () := by
  refine forM_eq_ok_iff.2 fun recipient hrecipient => ?_
  obtain ⟨key, hkey, rfl⟩ := mem_map.1 hrecipient
  rw [if_neg (addressees.kid_ne key hkey), if_neg (not_not.2 (addressees.curve_eq key hkey))]

/-- The curve of the first recipient is that of the sender, and so of all. -/
theorem Addressees.exists_publics_eq (addressees : Addressees prims sender) : ∃ first rest, addressees.publics =
    first :: rest ∧ prims.curve first.2 = prims.curve (prims.publicKey sender) ∧
    checkRecipients prims (prims.curve first.2) addressees.publics = .ok () := by
  obtain ⟨key, keys, hkeys⟩ := exists_cons_of_ne_nil addressees.ne_nil
  have hcurve := addressees.curve_eq key (hkeys ▸ mem_cons_self)
  refine ⟨(key.1, prims.publicKey key.2), keys.map fun key => (key.1, prims.publicKey key.2), ?_, hcurve, ?_⟩
  · rw [publics, hkeys, map_cons]
  · exact hcurve ▸ checkRecipients_publics addressees

variable (others draws)

theorem decrypt_authcrypt (hprims : prims.Lawful) (hreader : reader.Lawful 127)
    (addressees : Addressees prims sender) {senderKid : String} (hkid : senderKid ≠ "") (plaintext : Bytes) :
    ∃ packed value header, authcrypt draws plaintext senderKid sender addressees.publics = .ok packed ∧
    reader.parse packed = .ok value ∧ isJwe value = true ∧ ∀ key ∈ addressees.keys,
    decrypt (wireCodec reader others) (wireCrypto prims) packed key.1 key.2 (some (prims.publicKey sender)) =
    .ok ⟨plaintext, header, true, some senderKid, key.1, false⟩ := by
  obtain ⟨first, rest, hpublics, hcurve, hcheck⟩ := addressees.exists_publics_eq
  have hephemeral := draws.curve_ephemeral (prims.curve first.2)
  have hapu : ∀ apv ephemeral, decodeApu (wireCodec reader others) (authcryptHeader prims senderKid apv ephemeral) =
      .ok (utf8 senderKid) := by
    intro apv ephemeral
    show invalid "invalid apu" (decodeB64 (encodeB64 (utf8 senderKid))) = _
    rw [decodeB64_encodeB64]
    rfl
  obtain ⟨packed, value, hseal, hparse, hjwe, hopen⟩ := decrypt_sealEnvelope others draws hprims hreader plaintext
    (authcryptHeader prims senderKid (computeApv prims (addressees.publics.map Prod.fst))
      (draws.ephemeral (prims.curve first.2)))
    (draws.ephemeral (prims.curve first.2)) (utf8 senderKid) _ addressees.keys
    (fun tag recipientPublic =>
      deriveSenderKey1pu prims (draws.ephemeral (prims.curve first.2)) sender recipientPublic
      (utf8 senderKid) (computeApv prims (addressees.publics.map Prod.fst)) tag)
    (some (prims.publicKey sender)) true (some senderKid) rfl (hapu _ _) rfl addressees.nodup (by
      rintro key hkey tag
      have hsame := addressees.curve_eq key hkey
      obtain ⟨kek, hsend, hreceive, hlength⟩ := derive1pu_agree hprims (hephemeral.trans (hcurve.trans hsame.symm))
        hsame.symm (utf8 senderKid) (computeApv prims (addressees.publics.map Prod.fst)) tag
      refine ⟨kek, hsend, hlength, fun wrapped hunwrap => ?_⟩
      rw [unwrapKey_1pu rfl hreceive hunwrap, fromUtf8_utf8])
  refine ⟨packed, value, _, ?_, hparse, hjwe, hopen⟩
  have hseal : sealEnvelope draws plaintext _ _ addressees.publics = .ok packed := hseal
  rw [hpublics] at hseal hcheck ⊢
  unfold authcrypt
  simp only [if_neg hkid, hcheck, ok_bind]
  exact hseal

theorem authcrypt_nil_kid (addressees : Addressees prims sender) (plaintext : Bytes) :
    authcrypt draws plaintext "" sender addressees.publics =
    .error (.invalidMessage "sender KID must not be empty") := by
  obtain ⟨first, rest, hpublics, -, -⟩ := addressees.exists_publics_eq
  rw [hpublics]
  rfl

theorem decrypt_anoncrypt (hprims : prims.Lawful) (hreader : reader.Lawful 127)
    (addressees : Addressees prims sender) (plaintext : Bytes) (senderPublic : Option Pub) : ∃ packed value header,
    anoncrypt draws plaintext addressees.publics = .ok packed ∧ reader.parse packed = .ok value ∧ isJwe value =
    true ∧ ∀ key ∈ addressees.keys, decrypt (wireCodec reader others) (wireCrypto prims) packed key.1 key.2
    senderPublic = .ok ⟨plaintext, header, false, none, key.1, false⟩ := by
  obtain ⟨first, rest, hpublics, hcurve, hcheck⟩ := addressees.exists_publics_eq
  have hephemeral := draws.curve_ephemeral (prims.curve first.2)
  obtain ⟨packed, value, hseal, hparse, hjwe, hopen⟩ := decrypt_sealEnvelope others draws hprims hreader plaintext
    (anoncryptHeader prims (computeApv prims (addressees.publics.map Prod.fst))
      (draws.ephemeral (prims.curve first.2)))
    (draws.ephemeral (prims.curve first.2)) [] _ addressees.keys
    (fun _ recipientPublic => deriveSenderKey prims (draws.ephemeral (prims.curve first.2)) recipientPublic []
      (computeApv prims (addressees.publics.map Prod.fst)))
    senderPublic false none rfl rfl rfl addressees.nodup (by
      rintro key hkey tag
      have hsame := addressees.curve_eq key hkey
      obtain ⟨kek, hsend, hreceive, hlength⟩ := deriveEs_agree hprims (hephemeral.trans (hcurve.trans hsame.symm)) []
        (computeApv prims (addressees.publics.map Prod.fst))
      refine ⟨kek, hsend, hlength, fun wrapped hunwrap => ?_⟩
      exact unwrapKey_es rfl hreceive hunwrap)
  refine ⟨packed, value, _, ?_, hparse, hjwe, hopen⟩
  have hseal : sealEnvelope draws plaintext _ _ addressees.publics = .ok packed := hseal
  rw [hpublics] at hseal hcheck ⊢
  unfold anoncrypt
  simp only [hcheck, ok_bind]
  exact hseal

end

end AffinidiTdk.Didcomm
