/-
DIDComm encrypted envelopes and their decryption (messaging-didcomm `jwe/envelope.rs`,
`jwe/decrypt.rs`, `message/mod.rs`). JSON and base64 decoding are parameters, and so are the
primitives of the key agreement: what is modelled is which header field goes where. The sequence
form of serde's structs is left out.
-/
import AffinidiTdk.Lib.Except
import AffinidiTdk.Lib.Json
import AffinidiTdk.Lib.Text

namespace AffinidiTdk.Didcomm

open Fallible

/-! ## Texts -/

abbrev Bytes := List UInt8

def utf8 (s : String) : Bytes := s.toUTF8.data.toList

def fromUtf8 (bytes : Bytes) : Option String := String.fromUTF8? ⟨bytes.toArray⟩

@[simp] theorem fromUtf8_utf8 (s : String) : fromUtf8 (utf8 s) = some s := by
  have hbytes : (⟨(utf8 s).toArray⟩ : ByteArray) = s.toUTF8 := by simp [utf8]
  rw [fromUtf8, hbytes]
  exact dif_pos s.isValidUTF8

/-- The DID of a DID URL: everything before the fragment. -/
def didOf (kid : String) : String := Text.before '#' kid

/-! ## Envelopes and messages -/

/-- The protected header of a JWE. -/
structure ProtectedHeader where
  typ : Option String
  alg : String
  enc : String
  skid : Option String
  apu : Option String
  apv : String
  epk : Json

/-- An encrypted key with the kid it is for. -/
structure Recipient where
  kid : String
  encryptedKey : String

/-- The general JSON form of a JWE. -/
structure Jwe where
  protectedHeader : String
  recipients : List Recipient
  iv : String
  ciphertext : String
  tag : String

/-- An attachment of a message. -/
structure Attachment where
  id : Option String := none
  description : Option String := none
  filename : Option String := none
  mediaType : Option String := none
  format : Option String := none
  lastmodTime : Option ℕ := none
  byteCount : Option ℕ := none
  json : Option Json := none
  base64 : Option String := none
  links : Option (List String) := none
  hash : Option String := none
  jws : Option String := none
  deriving DecidableEq

/-- A plaintext message; `sender` is its `from`, `toDids` its `to`. The members of `extra` have different names, and
stand in some order that the hash map has. -/
structure Message where
  id : String
  typ : String
  sender : Option String := none
  toDids : Option (List String) := none
  body : Json
  thid : Option String := none
  pthid : Option String := none
  createdTime : Option ℕ := none
  expiresTime : Option ℕ := none
  attachments : Option (List Attachment) := none
  extra : List (String × Json) := []
  deriving DecidableEq

/-- Text decoding: JSON from a text or from bytes, a message from bytes, and the two base64
alphabets, unpadded and padded. -/
structure Codec where
  fromStr : String → Except String Json
  fromSlice : Bytes → Except String Json
  toStr : Json → Except String String
  message : Bytes → Except String Message
  base64 : String → Except String Bytes
  base64Padded : String → Except String Bytes
  sha256 : String → String

/-- The key agreement on the recipient's side: ECDH-1PU with the sender's public key, its legacy
form, ECDH-ES, the key wrap and the content encryption. -/
structure Crypto (Priv Pub Kek : Type) where
  publicFromJwk : Json → Except String Pub
  deriveKey1puRecipient : Priv → Pub → Pub → String → Bytes → Bytes → Bytes → Except String Kek
  deriveKey1puRecipientLegacy : Priv → Pub → Pub → String → Bytes → Bytes → Bytes → Except String Kek
  deriveKeyEsRecipient : Priv → Pub → String → Bytes → Bytes → Except String Kek
  unwrap : Kek → Bytes → Except String Bytes
  decrypt : Bytes → Bytes → Bytes → String → Bytes → Except String Bytes

/-- The error kinds of the crate. -/
inductive DIDCommError
  | keyAgreement (msg : String)
  | keyWrap (msg : String)
  | contentEncryption (msg : String)
  | verification (msg : String)
  | invalidMessage (msg : String)
  | identityNotFound (msg : String)
  | unsupportedAlgorithm (msg : String)
  | serialization (msg : String)
  | noKeyAgreement (msg : String)
  deriving DecidableEq

def DIDCommError.display : DIDCommError → String
  | .keyAgreement msg => "key agreement failed: " ++ msg
  | .keyWrap msg => "key wrap failed: " ++ msg
  | .contentEncryption msg => "content encryption failed: " ++ msg
  | .verification msg => "verification failed: " ++ msg
  | .invalidMessage msg => "invalid message: " ++ msg
  | .identityNotFound msg => "identity not found: " ++ msg
  | .unsupportedAlgorithm msg => "unsupported algorithm: " ++ msg
  | .serialization msg => "serialization error: " ++ msg
  | .noKeyAgreement msg => "no compatible key agreement key: " ++ msg

/-! ## Decoding the structures -/

/-- A failure as an invalid message, with what was being read. -/
def invalid {α : Type} (what : String) (x : Except String α) : Except DIDCommError α :=
  x.mapError fun e => .invalidMessage (what ++ ": " ++ e)

/-- A required text field. -/
def requireStr (value : Json) (key : String) : Except String String :=
  match value.get? key with
  | some (.str s) => .ok s
  | some _ => .error "invalid type, expected a string"
  | none => .error s!"missing field {key}"

/-- An optional text field; null counts as absent. -/
def optionalStr (value : Json) (key : String) : Except String (Option String) :=
  match value.get? key with
  | some (.str s) => .ok (some s)
  | some .null | none => .ok none
  | some _ => .error "invalid type, expected a string"

def Recipient.ofJson (value : Json) : Except String Recipient := do
  let kid ← requireStr (value.index "header") "kid"
  let encryptedKey ← requireStr value "encrypted_key"
  return ⟨kid, encryptedKey⟩

def recipientsOfJson (value : Json) : Except String (List Recipient) :=
  match value.get? "recipients" with
  | some (.arr items) => items.mapM Recipient.ofJson
  | some _ => .error "invalid type, expected a sequence"
  | none => .error "missing field recipients"

def Jwe.ofJson (value : Json) : Except String Jwe := do
  let protectedHeader ← requireStr value "protected"
  let recipients ← recipientsOfJson value
  let iv ← requireStr value "iv"
  let ciphertext ← requireStr value "ciphertext"
  let tag ← requireStr value "tag"
  return ⟨protectedHeader, recipients, iv, ciphertext, tag⟩

def ProtectedHeader.ofJson (value : Json) : Except String ProtectedHeader := do
  let typ ← optionalStr value "typ"
  let alg ← requireStr value "alg"
  let enc ← requireStr value "enc"
  let skid ← optionalStr value "skid"
  let apu ← optionalStr value "apu"
  let apv ← requireStr value "apv"
  match value.get? "epk" with
  | some epk => return ⟨typ, alg, enc, skid, apu, apv, epk⟩
  | none => .error "missing field epk"

/-! ## Decryption -/

/-- What decrypting gives: the plaintext, and who sent it to whom. -/
structure DecryptedJwe where
  plaintext : Bytes
  header : ProtectedHeader
  authenticated : Bool
  senderKid : Option String
  recipientKid : String
  legacyKekUsed : Bool

section

variable {Priv Pub Kek : Type} (codec : Codec) (crypto : Crypto Priv Pub Kek)

/-- The protected header of a text as a JSON value, as the header lookups before the decryption
read it. -/
def headerValue (input : String) : Option Json := do
  let value ← (codec.fromStr input).toOption
  let protectedB64 ← value.strField "protected"
  let headerBytes ← (codec.base64 protectedB64).toOption
  (codec.fromSlice headerBytes).toOption

/-- The key encryption keys of the two algorithms, tried in turn: the content encryption key, the
authenticated flag, the sender key id and the legacy flag. -/
def unwrapKey (header : ProtectedHeader) (recipientPrivate : Priv) (senderPublic : Option Pub) (epk : Pub)
    (apuRaw apvRaw tag wrappedKey : Bytes) : Except DIDCommError (Bytes × Bool × Option String × Bool) :=
  if header.alg = "ECDH-1PU+A256KW" then
    match senderPublic with
    | none => .error (.invalidMessage "authcrypt requires sender public key for decryption")
    | some senderPub => do
      let senderKid := fromUtf8 apuRaw
      let kek ← (crypto.deriveKey1puRecipient recipientPrivate senderPub epk "ECDH-1PU+A256KW" apuRaw apvRaw
        tag).mapError .keyAgreement
      match crypto.unwrap kek wrappedKey with
      | .ok cek => return (cek, true, senderKid, false)
      | .error _ =>
        let legacyKek ← (crypto.deriveKey1puRecipientLegacy recipientPrivate senderPub epk "ECDH-1PU+A256KW"
          apuRaw apvRaw tag).mapError .keyAgreement
        let cek ← (crypto.unwrap legacyKek wrappedKey).mapError .keyWrap
        return (cek, true, senderKid, true)
  else if header.alg = "ECDH-ES+A256KW" then do
    let kek ← (crypto.deriveKeyEsRecipient recipientPrivate epk "ECDH-ES+A256KW" apuRaw apvRaw).mapError
      .keyAgreement
    let cek ← (crypto.unwrap kek wrappedKey).mapError .keyWrap
    return (cek, false, none, false)
  else .error (.unsupportedAlgorithm s!"unsupported alg: {header.alg}")

def decodeApu (header : ProtectedHeader) : Except DIDCommError Bytes :=
  match header.apu with
  | some apu => invalid "invalid apu" (codec.base64 apu)
  | none => .ok []

def decrypt (jweStr recipientKid : String) (recipientPrivate : Priv) (senderPublic : Option Pub) :
    Except DIDCommError DecryptedJwe := do
  let jwe ← invalid "invalid JWE JSON" (codec.fromStr jweStr >>= Jwe.ofJson)
  let headerBytes ← invalid "invalid protected header base64" (codec.base64 jwe.protectedHeader)
  let header ← invalid "invalid protected header JSON" (codec.fromSlice headerBytes >>= ProtectedHeader.ofJson)
  let iv ← invalid "invalid IV" (codec.base64 jwe.iv)
  if iv.length ≠ 16 then
    throw (.invalidMessage "IV must be 16 bytes")
  let ciphertext ← invalid "invalid ciphertext" (codec.base64 jwe.ciphertext)
  let tag ← invalid "invalid tag" (codec.base64 jwe.tag)
  if tag.length ≠ 32 then
    throw (.invalidMessage "tag must be 32 bytes")
  match jwe.recipients.find? fun r => r.kid = recipientKid with
  | none => .error (.invalidMessage s!"recipient {recipientKid} not found in JWE")
  | some recipient =>
    let wrappedKey ← invalid "invalid encrypted_key" (codec.base64 recipient.encryptedKey)
    let epk ← (crypto.publicFromJwk header.epk).mapError .keyAgreement
    let apuRaw ← decodeApu codec header
    let apvRaw ← invalid "invalid apv" (codec.base64 header.apv)
    let (cek, authenticated, senderKid, legacyKekUsed) ←
      unwrapKey crypto header recipientPrivate senderPublic epk apuRaw apvRaw tag wrappedKey
    if cek.length ≠ 64 then
      throw (.keyWrap "unwrapped CEK wrong size")
    let plaintext ← (crypto.decrypt ciphertext cek iv jwe.protectedHeader tag).mapError .contentEncryption
    return ⟨plaintext, header, authenticated, senderKid, recipientKid, legacyKekUsed⟩

/-! ## What a decryption establishes -/

/-- The sender key id a header names: its `apu` as text. -/
def apuKid (header : Json) : Option String :=
  match header.strField "apu" with
  | some apu => (codec.base64 apu).toOption.bind fromUtf8
  | none => fromUtf8 []

/-- The wrapped key of a recipient of the text. -/
def wrappedKey (input kid : String) : Option Bytes := do
  let jwe ← (codec.fromStr input >>= Jwe.ofJson).toOption
  let recipient ← jwe.recipients.find? fun r => r.kid = kid
  (codec.base64 recipient.encryptedKey).toOption

/-- A key encryption key that ECDH-1PU derives from the sender's key, spec or legacy. -/
def Derives1pu (recipientPrivate : Priv) (senderPub epk : Pub) (apu apv tag : Bytes) (kek : Kek) : Prop :=
  crypto.deriveKey1puRecipient recipientPrivate senderPub epk "ECDH-1PU+A256KW" apu apv tag = .ok kek ∨
  crypto.deriveKey1puRecipientLegacy recipientPrivate senderPub epk "ECDH-1PU+A256KW" apu apv tag = .ok kek

/-- The text opens for a recipient by ECDH-1PU with the sender's key `senderPub`. -/
def OpensWith (input kid : String) (recipientPrivate : Priv) (senderPub : Pub) : Prop :=
  ∃ epk apu apv tag kek wrapped cek,
    Derives1pu crypto recipientPrivate senderPub epk apu apv tag kek ∧
    wrappedKey codec input kid = some wrapped ∧ crypto.unwrap kek wrapped = .ok cek

end

section

variable {Priv Pub Kek : Type} {codec : Codec} {crypto : Crypto Priv Pub Kek}

theorem invalid_eq_ok_iff {α : Type} {what : String} {x : Except String α} {a : α} :
    invalid what x = .ok a ↔ x = .ok a := by
  cases x <;> simp [invalid, mapError_ok, mapError_error]

variable {value : Json}

theorem requireStr_eq_ok {key s : String} (h : requireStr value key = .ok s) : value.strField key = some s := by
  unfold requireStr at h
  unfold Json.strField
  split at h
  · rename_i hs
    cases h
    simp [hs, Json.asStr]
  · cases h
  · cases h

theorem optionalStr_eq_ok {key : String} {o : Option String} (h : optionalStr value key = .ok o) :
    value.strField key = o := by
  unfold optionalStr at h
  unfold Json.strField
  split at h
  · rename_i hs
    cases h
    simp [hs, Json.asStr]
  · rename_i hs
    cases h
    simp [hs, Json.asStr]
  · rename_i hs
    cases h
    simp [hs]
  · cases h

variable {header : ProtectedHeader}

theorem ProtectedHeader.ofJson_eq_ok (h : ProtectedHeader.ofJson value = .ok header) : value.strField "alg" =
    some header.alg ∧ value.strField "apu" = header.apu := by
  unfold ProtectedHeader.ofJson at h
  simp only [bind_eq_ok_iff] at h
  obtain ⟨typ, htyp, alg, halg, enc, henc, skid, hskid, apu, hapu, apv, hapv, h⟩ := h
  split at h
  · rw [pure_eq_ok_iff] at h
    subst h
    exact ⟨requireStr_eq_ok halg, optionalStr_eq_ok hapu⟩
  · cases h

theorem Jwe.ofJson_eq_ok {jwe : Jwe} (h : Jwe.ofJson value = .ok jwe) : value.strField "protected" =
    some jwe.protectedHeader := by
  unfold Jwe.ofJson at h
  simp only [bind_eq_ok_iff] at h
  obtain ⟨b64, hb64, recipients, -, iv, -, ciphertext, -, tag, -, h⟩ := h
  rw [pure_eq_ok_iff] at h
  subst h
  exact requireStr_eq_ok hb64

variable {senderPublic : Option Pub}

theorem unwrapKey_authenticated {priv : Priv} {epk : Pub} {apu apv tag wrapped cek : Bytes}
    {senderKid : Option String} {legacy : Bool}
    (h : unwrapKey crypto header priv senderPublic epk apu apv tag wrapped = .ok (cek, true, senderKid, legacy)) :
    header.alg = "ECDH-1PU+A256KW" ∧ senderKid = fromUtf8 apu ∧ ∃ pub kek, senderPublic = some pub ∧
    Derives1pu crypto priv pub epk apu apv tag kek ∧ crypto.unwrap kek wrapped = .ok cek := by
  unfold unwrapKey at h
  split at h
  · rename_i halg
    cases senderPublic with
    | none => cases h
    | some pub =>
      simp only [bind_eq_ok_iff, mapError_eq_ok_iff] at h
      obtain ⟨kek, hkek, h⟩ := h
      split at h
      · rename_i hcek
        rw [pure_eq_ok_iff] at h
        cases h
        exact ⟨halg, rfl, pub, kek, rfl, .inl hkek, hcek⟩
      · simp only [bind_eq_ok_iff, mapError_eq_ok_iff, pure_eq_ok_iff] at h
        obtain ⟨legacyKek, hlegacy, cek', hcek, h⟩ := h
        cases h
        exact ⟨halg, rfl, pub, legacyKek, rfl, .inr hlegacy, hcek⟩
  · split at h
    · simp only [bind_eq_ok_iff, mapError_eq_ok_iff, pure_eq_ok_iff] at h
      obtain ⟨kek, hkek, cek', hcek, h⟩ := h
      cases h
    · cases h

/-- What an authenticated decryption says about its text: the header the lookups read is the one
that was used, and the reported key id is the one its `apu` names. -/
theorem decrypt_authenticated {input kid : String} {priv : Priv} {d : DecryptedJwe}
    (h : decrypt codec crypto input kid priv senderPublic = .ok d) (ha : d.authenticated = true) : ∃ header pub,
    headerValue codec input = some header ∧ header.strField "alg" = some "ECDH-1PU+A256KW" ∧ senderPublic =
    some pub ∧ d.senderKid = apuKid codec header ∧ OpensWith codec crypto input kid priv pub := by
  unfold decrypt at h
  simp only [bind_eq_ok_iff, invalid_eq_ok_iff, guard_eq_ok_iff] at h
  obtain ⟨jwe, ⟨value, hvalue, hjwe⟩, bytes, hbytes, header, ⟨hv, hhv, hheader⟩, iv, -, -, ciphertext, -, tag,
    -, -, h⟩ := h
  split at h
  · cases h
  rename_i recipient hrecipient
  simp only [bind_eq_ok_iff, invalid_eq_ok_iff, guard_eq_ok_iff, mapError_eq_ok_iff, pure_eq_ok_iff] at h
  obtain ⟨wrapped, hwrapped, epk, hepk, apu, hapu, apv, -, ⟨cek, authenticated, senderKid, legacy⟩, hunwrap, -,
    plaintext, -, h⟩ := h
  subst h
  change authenticated = true at ha
  subst ha
  obtain ⟨halg, hkid, pub, kek, hpub, hderives, hcek⟩ := unwrapKey_authenticated hunwrap
  obtain ⟨hvalg, hvapu⟩ := ProtectedHeader.ofJson_eq_ok hheader
  refine ⟨hv, pub, ?_, ?_, hpub, ?_, epk, apu, apv, tag, kek, wrapped, cek, hderives, ?_, hcek⟩
  · simp [headerValue, hvalue, Jwe.ofJson_eq_ok hjwe, hbytes, hhv, Except.toOption]
  · rw [hvalg, halg]
  · change senderKid = _
    rw [hkid, apuKid, hvapu]
    unfold decodeApu at hapu
    cases hu : header.apu with
    | none =>
      rw [hu] at hapu
      cases hapu
      rfl
    | some b64 =>
      rw [hu] at hapu
      rw [invalid_eq_ok_iff] at hapu
      simp [hapu, Except.toOption]
  · simp [wrappedKey, hvalue, hjwe, hrecipient, hwrapped, bind, Except.bind, Except.toOption]

end

end AffinidiTdk.Didcomm
