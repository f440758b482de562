/-
What a device signature vouches for. The check passes for every byte string that decodes to the signed namespaces; the
received bytes are the signed ones exactly where they are the encoding of what they decode to, and what a device
creates verifies exactly there.
-/
import AffinidiTdk.Mdoc.DeviceAuth

namespace AffinidiTdk.Mdoc

open OrdMap

open Cbor (Value)
open Fallible

/-! ## Decoding what was encoded -/

theorem insertEach_decodeItems (entries : List (String × Value)) (items : OrdMap String Value) :
    OrdMap.insertEach Prod.fst (fun entry : String × Value => (.ok entry.2 : Except Unit Value)) entries items =
      .ok (decodeItems (entries.map fun entry => (.text entry.1, entry.2)) items) := by
  induction entries generalizing items with
  | nil => rfl
  | cons entry entries ih => exact ih (items.insert entry.1 entry.2)

theorem insertEach_decodeEntries (entries : List (String × OrdMap String Value)) (result : DeviceNameSpaces) :
    OrdMap.insertEach Prod.fst (fun entry : String × OrdMap String Value =>
        (.ok (decodeItems (entry.2.entries.map fun item => (.text item.1, item.2)) .empty) :
          Except Unit (OrdMap String Value))) entries result =
      .ok (decodeEntries (entries.map fun entry =>
        (.text entry.1, .map (entry.2.entries.map fun item => (.text item.1, item.2)))) result) := by
  induction entries generalizing result with
  | nil => rfl
  | cons entry entries ih => exact ih (result.insert entry.1 _)

theorem eq_of_insertEach {β : Type} {m m' : OrdMap String β} {f : String × β → Except Unit β}
    (hf : ∀ entry, f entry = .ok entry.2) (h : OrdMap.insertEach Prod.fst f m.entries .empty = .ok m') : m' = m := by
  obtain ⟨hmem, hother⟩ := get?_insertEach m.keys_nodup h
  refine ext_get? fun key => ?_
  cases hkey : m.get? key with
  | none =>
    rw [hother key]
    · rfl
    · change key ∉ m.keys
      rw [mem_keys]
      rintro ⟨value, hvalue⟩
      rw [get?_eq_some_iff.2 hvalue] at hkey
      cases hkey
  | some value =>
    obtain ⟨value', hvalue, hget⟩ := hmem (key, value) (get?_eq_some_iff.1 hkey)
    rw [hf] at hvalue
    cases hvalue
    exact hget

theorem decodeItems_entries (items : OrdMap String Value) :
    decodeItems (items.entries.map fun item => (.text item.1, item.2)) .empty = items :=
  eq_of_insertEach (fun _ => rfl) (insertEach_decodeItems items.entries .empty)

theorem decodeDeviceNamespaces_encode (namespaces : DeviceNameSpaces) :
    decodeDeviceNamespaces (encodeDeviceNamespaces namespaces) = namespaces :=
  eq_of_insertEach (fun entry => by rw [decodeItems_entries entry.2])
    (insertEach_decodeEntries namespaces.entries .empty)

theorem Handover.toCborValue_injective {a b : Handover} (h : a.toCborValue = b.toCborValue) : a = b := by
  cases a <;> cases b <;> simp [Handover.toCborValue] at h ⊢
  · rename_i select request select' request'
    refine ⟨h.1, ?_⟩
    cases request <;> cases request' <;> simp at h ⊢
    exact h.2
  · exact h

theorem SessionTranscript.toCborValue_injective {a b : SessionTranscript} (h : a.toCborValue = b.toCborValue) :
    a = b := by
  have htagged : ∀ {x y : Option Bytes}, taggedOrNull x = taggedOrNull y → x = y := by
    intro x y h
    cases x <;> cases y <;> simp [taggedOrNull] at h ⊢
    exact h
  obtain ⟨engagement, key, handover⟩ := a
  obtain ⟨engagement', key', handover'⟩ := b
  simp only [SessionTranscript.toCborValue, Value.array.injEq, List.cons.injEq, and_true] at h
  obtain ⟨hengagement, hkey, hhandover⟩ := h
  rw [htagged hengagement, htagged hkey, Handover.toCborValue_injective hhandover]

/-! ## Signed by the device -/

/-- What device authentication relies on, for the signatures that the device made: with which headers and for what.
The encodings of what is signed determine it, the signature structure determines the payload and does not depend on
the signature, and the verifier accepts a signature exactly for the one text that it was made for. -/
structure DeviceLaws (crates : Crates) (coset : Coset) (verifier : CoseVerifier)
    (Signed : DeviceAuthentication → CoseSign1 → Bytes → Prop) : Prop where
  authentication : ∀ {auth auth' : DeviceAuthentication} {value value' bytes}, auth.toCborValue crates = .ok value →
    auth'.toCborValue crates = .ok value' → crates.encode value = .ok bytes → crates.encode value' = .ok bytes →
    value = value'
  tagged : ∀ {inner inner' bytes}, crates.encode (.tag 24 (.bytes inner)) = .ok bytes →
    crates.encode (.tag 24 (.bytes inner')) = .ok bytes → inner = inner'
  payload : ∀ sign1 sign1' bytes bytes', coset.tbsDetached sign1 bytes [] = coset.tbsDetached sign1' bytes' [] →
    bytes = bytes'
  tbsDetached : ∀ (sign1 : CoseSign1) signature bytes, coset.tbsDetached { sign1 with signature } bytes [] =
    coset.tbsDetached sign1 bytes []
  exact : ∀ data signature, verifier data signature = .ok true ↔ ∃ auth sign1 bytes, Signed auth sign1 signature ∧
    auth.toDeviceAuthenticationBytes crates = .ok bytes ∧ data = coset.tbsDetached sign1 bytes []
  single : ∀ {auth auth' sign1 sign1' signature}, Signed auth sign1 signature → Signed auth' sign1' signature →
    auth.toDeviceAuthenticationBytes crates = auth'.toDeviceAuthenticationBytes crates

variable {crates : Crates} {coset : Coset} {verifier : CoseVerifier}
  {Signed : DeviceAuthentication → CoseSign1 → Bytes → Prop}

/-- The bytes are the encoding of the namespaces that they decode to. -/
def OwnEncoding (crates : Crates) (bytes : Bytes) : Prop :=
  ∃ value, crates.decode bytes = .ok value ∧ crates.encode (encodeDeviceNamespaces (decodeDeviceNamespaces value)) =
    .ok bytes

/-- The decoder gives back the encoded namespaces. -/
def ComesBack (crates : Crates) (namespaces : DeviceNameSpaces) : Prop :=
  ∀ bytes, crates.encode (encodeDeviceNamespaces namespaces) = .ok bytes →
    crates.decode bytes = .ok (encodeDeviceNamespaces namespaces)

/-- The received bytes are the encoding of namespaces that the device signed for the transcript and the type of the
document, with the signature of the response. -/
def SignedNamespaces (crates : Crates) (Signed : DeviceAuthentication → CoseSign1 → Bytes → Prop)
    (response : SignedResponse) (sessionTranscript : SessionTranscript) : Prop :=
  ∃ deviceSigned signature namespaces sign1, response.deviceSigned = some deviceSigned ∧
    deviceSigned.deviceAuth = .signature signature ∧
    Signed ⟨sessionTranscript, response.docType, namespaces⟩ sign1 signature.signature ∧
    crates.encode (encodeDeviceNamespaces namespaces) = .ok deviceSigned.namespacesBytes

variable {auth : DeviceAuthentication} {value : Value}

theorem toCborValue_eq_ok_iff : auth.toCborValue crates = .ok value ↔ ∃ nsBytes,
    crates.encode (encodeDeviceNamespaces auth.deviceNamespaces) = .ok nsBytes ∧ value =
    .array [.text "DeviceAuthentication", auth.sessionTranscript.toCborValue, .text auth.docType,
    .tag 24 (.bytes nsBytes)] := by
  rw [DeviceAuthentication.toCborValue, bind_eq_ok_iff]
  constructor
  · rintro ⟨nsBytes, hns, h⟩
    exact ⟨nsBytes, mapError_eq_ok_iff.1 hns, (pure_eq_ok_iff.1 h).symm⟩
  · rintro ⟨nsBytes, hns, rfl⟩
    exact ⟨nsBytes, mapError_eq_ok_iff.2 hns, rfl⟩

variable {bytes : Bytes}

theorem toDeviceAuthenticationBytes_eq_ok_iff : auth.toDeviceAuthenticationBytes crates = .ok bytes ↔
    ∃ value inner, auth.toCborValue crates = .ok value ∧ crates.encode value = .ok inner ∧
    crates.encode (.tag 24 (.bytes inner)) = .ok bytes := by
  rw [DeviceAuthentication.toDeviceAuthenticationBytes, bind_eq_ok_iff]
  simp only [bind_eq_ok_iff, mapError_eq_ok_iff, exists_and_left]

/-- The bytes that are signed determine the transcript, the type and the encoding of the namespaces. -/
theorem DeviceLaws.signed_bytes (laws : DeviceLaws crates coset verifier Signed) {auth' : DeviceAuthentication}
    (h : auth.toDeviceAuthenticationBytes crates = .ok bytes)
    (h' : auth'.toDeviceAuthenticationBytes crates = .ok bytes) : auth.sessionTranscript =
    auth'.sessionTranscript ∧ auth.docType = auth'.docType ∧ ∃ nsBytes,
    crates.encode (encodeDeviceNamespaces auth.deviceNamespaces) = .ok nsBytes ∧
    crates.encode (encodeDeviceNamespaces auth'.deviceNamespaces) = .ok nsBytes := by
  obtain ⟨value, inner, hvalue, hinner, htagged⟩ := toDeviceAuthenticationBytes_eq_ok_iff.1 h
  obtain ⟨value', inner', hvalue', hinner', htagged'⟩ := toDeviceAuthenticationBytes_eq_ok_iff.1 h'
  obtain rfl := laws.tagged htagged htagged'
  have hsame := laws.authentication hvalue hvalue' hinner hinner'
  obtain ⟨nsBytes, hns, rfl⟩ := toCborValue_eq_ok_iff.1 hvalue
  obtain ⟨nsBytes', hns', rfl⟩ := toCborValue_eq_ok_iff.1 hvalue'
  simp only [Value.array.injEq, List.cons.injEq, Value.text.injEq, Value.tag.injEq, Value.bytes.injEq, true_and,
    and_true] at hsame
  obtain ⟨htranscript, hdocType, rfl⟩ := hsame
  exact ⟨SessionTranscript.toCborValue_injective htranscript, hdocType, nsBytes, hns, hns'⟩

variable {response : SignedResponse} {sessionTranscript : SessionTranscript}

theorem verifyDeviceAuth_eq_ok (h : response.verifyDeviceAuth crates coset sessionTranscript verifier = .ok true) :
    ∃ deviceSigned sign1 value bytes, response.deviceSigned = some deviceSigned ∧ deviceSigned.deviceAuth =
    .signature sign1 ∧ crates.decode deviceSigned.namespacesBytes = .ok value ∧
    (⟨sessionTranscript, response.docType, decodeDeviceNamespaces value⟩ :
    DeviceAuthentication).toDeviceAuthenticationBytes crates = .ok bytes ∧
    verifier (coset.tbsDetached sign1 bytes []) sign1.signature = .ok true := by
  obtain ⟨deviceSigned, hsigned, h⟩ := bind_eq_ok_iff.1 h
  obtain ⟨value, hvalue, h⟩ := bind_eq_ok_iff.1 h
  obtain ⟨bytes, hbytes, h⟩ := bind_eq_ok_iff.1 h
  cases hauth : deviceSigned.deviceAuth with
  | mac tag =>
    rw [hauth] at h
    cases h
  | signature sign1 =>
    rw [hauth] at h
    obtain ⟨haccept, -⟩ := unit_bind_eq_ok_iff.1 h
    obtain ⟨valid, hvalid, haccept⟩ := bind_eq_ok_iff.1 (mapError_eq_ok_iff.1 haccept)
    cases valid with
    | false => cases haccept
    | true => exact ⟨deviceSigned, sign1, value, bytes, elim_throw_eq_ok_iff.1 hsigned, hauth,
        mapError_eq_ok_iff.1 hvalue, hbytes, hvalid⟩

/-- An accepted signature was made for the namespaces that the received bytes decode to, encoded anew. -/
theorem signed_of_verify (laws : DeviceLaws crates coset verifier Signed)
    (h : response.verifyDeviceAuth crates coset sessionTranscript verifier = .ok true) :
    ∃ deviceSigned signature value auth sign1 nsBytes bytes, response.deviceSigned = some deviceSigned ∧
      deviceSigned.deviceAuth = .signature signature ∧ crates.decode deviceSigned.namespacesBytes = .ok value ∧
      Signed auth sign1 signature.signature ∧ auth.toDeviceAuthenticationBytes crates = .ok bytes ∧
      auth.sessionTranscript = sessionTranscript ∧ auth.docType = response.docType ∧
      crates.encode (encodeDeviceNamespaces auth.deviceNamespaces) = .ok nsBytes ∧
      crates.encode (encodeDeviceNamespaces (decodeDeviceNamespaces value)) = .ok nsBytes := by
  obtain ⟨deviceSigned, signature, value, bytes, hsigned, hauth, hvalue, hbytes, hvalid⟩ := verifyDeviceAuth_eq_ok h
  obtain ⟨auth, sign1, bytes', hmade, hbytes', hdata⟩ := (laws.exact _ _).1 hvalid
  obtain rfl := laws.payload _ _ _ _ hdata
  obtain ⟨htranscript, hdocType, nsBytes, hns, hns'⟩ := laws.signed_bytes hbytes' hbytes
  exact ⟨deviceSigned, signature, value, auth, sign1, nsBytes, bytes, hsigned, hauth, hvalue, hmade, hbytes',
    htranscript, hdocType, hns, hns'⟩

/-- Bytes that are the encoding of signed namespaces, under a signature that is accepted for them, are their own
encoding: the signature was made for one text only. -/
theorem ownEncoding_of_signed (laws : DeviceLaws crates coset verifier Signed) {deviceSigned : DeviceSigned}
    {signature : CoseSign1} {auth : DeviceAuthentication} {sign1 : CoseSign1}
    (h : response.verifyDeviceAuth crates coset sessionTranscript verifier = .ok true)
    (hsigned : response.deviceSigned = some deviceSigned) (hauth : deviceSigned.deviceAuth = .signature signature)
    (hmade : Signed auth sign1 signature.signature)
    (hencode : crates.encode (encodeDeviceNamespaces auth.deviceNamespaces) = .ok deviceSigned.namespacesBytes) :
    OwnEncoding crates deviceSigned.namespacesBytes := by
  obtain ⟨deviceSigned', signature', value, auth', sign1', nsBytes, bytes, hsigned', hauth', hvalue, hmade', hbytes,
    -, -, hns, hns'⟩ := signed_of_verify laws h
  cases hsigned'.symm.trans hsigned
  obtain rfl := DeviceAuth.signature.inj (hauth'.symm.trans hauth)
  obtain ⟨-, -, nsBytes', hsame, hsame'⟩ := laws.signed_bytes ((laws.single hmade hmade').trans hbytes) hbytes
  cases hsame.symm.trans hencode
  cases hns.symm.trans hsame'
  exact ⟨value, hvalue, hns'⟩

/-- An accepted response carries signed namespaces exactly where its bytes are their own encoding. -/
theorem signedNamespaces_iff (laws : DeviceLaws crates coset verifier Signed)
    (h : response.verifyDeviceAuth crates coset sessionTranscript verifier = .ok true) :
    SignedNamespaces crates Signed response sessionTranscript ↔ ∃ deviceSigned, response.deviceSigned =
    some deviceSigned ∧ OwnEncoding crates deviceSigned.namespacesBytes := by
  constructor
  · rintro ⟨deviceSigned, signature, namespaces, sign1, hsigned, hauth, hmade, hencode⟩
    exact ⟨deviceSigned, hsigned, ownEncoding_of_signed laws h hsigned hauth hmade hencode⟩
  · rintro ⟨deviceSigned, hsigned, value, hvalue, hencode⟩
    obtain ⟨deviceSigned', signature, value', auth, sign1, nsBytes, bytes, hsigned', hauth, hvalue', hmade, -,
      rfl, hdocType, hns, hns'⟩ := signed_of_verify laws h
    cases hsigned.symm.trans hsigned'
    cases hvalue.symm.trans hvalue'
    cases hencode.symm.trans hns'
    obtain ⟨transcript, docType, namespaces⟩ := auth
    dsimp only at hdocType
    subst hdocType
    exact ⟨deviceSigned, signature, namespaces, sign1, hsigned, hauth, hmade, hns⟩

/-! ## What the device creates -/

variable {signer : CoseSigner}

theorem sign_eq_ok {deviceSigned : DeviceSigned}
    (h : DeviceSigned.sign crates coset auth signer = .ok deviceSigned) : ∃ bytes sign1 signature,
    auth.toDeviceAuthenticationBytes crates = .ok bytes ∧
    crates.encode (encodeDeviceNamespaces auth.deviceNamespaces) = .ok deviceSigned.namespacesBytes ∧
    signer.sign (coset.tbsDetached sign1 bytes []) = .ok signature ∧ deviceSigned.deviceAuth =
    .signature { sign1 with signature } := by
  obtain ⟨bytes, hbytes, h⟩ := bind_eq_ok_iff.1 h
  obtain ⟨nsBytes, hns, h⟩ := bind_eq_ok_iff.1 h
  obtain ⟨signature, hsignature, h⟩ := bind_eq_ok_iff.1 h
  cases h
  exact ⟨bytes, _, signature, hbytes, mapError_eq_ok_iff.1 hns, mapError_eq_ok_iff.1 hsignature, rfl⟩

/-- A response that was created with a device signature verifies under the same transcript exactly where its bytes
are their own encoding. -/
theorem verifyDeviceAuth_create (laws : DeviceLaws crates coset verifier Signed)
    (hsigner : ∀ auth sign1 bytes signature, auth.toDeviceAuthenticationBytes crates = .ok bytes →
    signer.sign (coset.tbsDetached sign1 bytes []) = .ok signature → Signed auth sign1 signature)
    {issuerSigned : IssuerSigned} {requested : OrdMap String (List String)}
    {deviceNamespaces : Option DeviceNameSpaces}
    (h : SignedResponse.createWithDeviceAuth crates coset issuerSigned requested sessionTranscript signer
    deviceNamespaces = .ok response) : ∃ deviceSigned, response.deviceSigned = some deviceSigned ∧
    crates.encode (encodeDeviceNamespaces (deviceNamespaces.getD .empty)) = .ok deviceSigned.namespacesBytes ∧
    (response.verifyDeviceAuth crates coset sessionTranscript verifier = .ok true ↔
      OwnEncoding crates deviceSigned.namespacesBytes) := by
  obtain ⟨deviceSigned, hsigned, h⟩ := bind_eq_ok_iff.1 h
  cases h
  obtain ⟨bytes, sign1, signature, hbytes, hns, hsignature, hauth⟩ := sign_eq_ok hsigned
  have hmade := hsigner _ _ _ _ hbytes hsignature
  refine ⟨deviceSigned, rfl, hns, fun hverify => ownEncoding_of_signed laws hverify rfl hauth hmade hns, ?_⟩
  rintro ⟨value, hvalue, hencode⟩
  have hvalid : verifier (coset.tbsDetached { sign1 with signature } bytes []) signature = .ok true :=
    (laws.exact _ _).2 ⟨_, sign1, bytes, hmade, hbytes, laws.tbsDetached _ _ _⟩
  have haccept : DeviceSigned.acceptDevice verifier signature (coset.tbsDetached { sign1 with signature } bytes []) =
      .ok () := bind_eq_ok_iff.2 ⟨true, hvalid, rfl⟩
  -- what is checked is made of the namespaces only through their encoding
  obtain ⟨authValue, inner, hauthValue, hinner, htagged⟩ := toDeviceAuthenticationBytes_eq_ok_iff.1 hbytes
  obtain ⟨nsBytes, hns', rfl⟩ := toCborValue_eq_ok_iff.1 hauthValue
  cases hns'.symm.trans hns
  refine bind_eq_ok_iff.2 ⟨deviceSigned, rfl, bind_eq_ok_iff.2 ⟨value, mapError_eq_ok_iff.2 hvalue, ?_⟩⟩
  refine bind_eq_ok_iff.2 ⟨bytes, ?_, ?_⟩
  · exact toDeviceAuthenticationBytes_eq_ok_iff.2 ⟨_, inner, toCborValue_eq_ok_iff.2 ⟨_, hencode, rfl⟩, hinner, htagged⟩
  · rw [hauth]
    exact unit_bind_eq_ok_iff.2 ⟨mapError_eq_ok_iff.2 haccept, rfl⟩

theorem ownEncoding_of_comesBack {namespaces : DeviceNameSpaces} (hback : ComesBack crates namespaces)
    (h : crates.encode (encodeDeviceNamespaces namespaces) = .ok bytes) : OwnEncoding crates bytes := by
  refine ⟨_, hback bytes h, ?_⟩
  rw [decodeDeviceNamespaces_encode]
  exact h

theorem exists_createWithDeviceAuth (hencode : ∀ value, ∃ bytes, crates.encode value = .ok bytes)
    (hsign : ∀ data, ∃ signature, signer.sign data = .ok signature) (issuerSigned : IssuerSigned)
    (requested : OrdMap String (List String)) (sessionTranscript : SessionTranscript)
    (deviceNamespaces : Option DeviceNameSpaces) :
    ∃ response, SignedResponse.createWithDeviceAuth crates coset issuerSigned requested sessionTranscript signer
      deviceNamespaces = .ok response := by
  let auth : DeviceAuthentication := ⟨sessionTranscript, issuerSigned.docType, deviceNamespaces.getD .empty⟩
  obtain ⟨nsBytes, hns⟩ := hencode (encodeDeviceNamespaces auth.deviceNamespaces)
  obtain ⟨inner, hinner⟩ := hencode (.array [.text "DeviceAuthentication", auth.sessionTranscript.toCborValue,
    .text auth.docType, .tag 24 (.bytes nsBytes)])
  obtain ⟨bytes, htagged⟩ := hencode (.tag 24 (.bytes inner))
  have hbytes : auth.toDeviceAuthenticationBytes crates = .ok bytes :=
    toDeviceAuthenticationBytes_eq_ok_iff.2 ⟨_, inner, toCborValue_eq_ok_iff.2 ⟨nsBytes, hns, rfl⟩, hinner, htagged⟩
  obtain ⟨signature, hsignature⟩ :=
    hsign (coset.tbsDetached ⟨coset.protectedHeader signer.algorithm, .map [], none, []⟩ bytes [])
  have hsigned : ∃ deviceSigned, DeviceSigned.sign crates coset auth signer = .ok deviceSigned :=
    ⟨_, bind_eq_ok_iff.2 ⟨bytes, hbytes, bind_eq_ok_iff.2 ⟨nsBytes, mapError_eq_ok_iff.2 hns,
      bind_eq_ok_iff.2 ⟨signature, mapError_eq_ok_iff.2 hsignature, rfl⟩⟩⟩⟩
  obtain ⟨deviceSigned, hsigned⟩ := hsigned
  exact ⟨_, bind_eq_ok_iff.2 ⟨deviceSigned, hsigned, rfl⟩⟩

/-- **What a device signature vouches for.** A response that passes the check carries the signed namespaces exactly
where its bytes are the encoding of the namespaces they decode to; what a device creates passes the check exactly
there too, so for all namespaces that the decoder gives back, and can be created for all. -/
theorem deviceSignature_exact (laws : DeviceLaws crates coset verifier Signed)
    (hsigner : ∀ auth sign1 bytes signature, auth.toDeviceAuthenticationBytes crates = .ok bytes →
      signer.sign (coset.tbsDetached sign1 bytes []) = .ok signature → Signed auth sign1 signature) :
    (∀ (response : SignedResponse) sessionTranscript,
      response.verifyDeviceAuth crates coset sessionTranscript verifier = .ok true →
      (SignedNamespaces crates Signed response sessionTranscript ↔ ∃ deviceSigned,
        response.deviceSigned = some deviceSigned ∧ OwnEncoding crates deviceSigned.namespacesBytes)) ∧
    ∀ issuerSigned requested sessionTranscript deviceNamespaces,
      (∀ response, SignedResponse.createWithDeviceAuth crates coset issuerSigned requested sessionTranscript signer
        deviceNamespaces = .ok response →
        (response.verifyDeviceAuth crates coset sessionTranscript verifier = .ok true ↔ ∃ deviceSigned,
          response.deviceSigned = some deviceSigned ∧ OwnEncoding crates deviceSigned.namespacesBytes) ∧
        (ComesBack crates (deviceNamespaces.getD .empty) →
          response.verifyDeviceAuth crates coset sessionTranscript verifier = .ok true)) ∧
      ((∀ value, ∃ bytes, crates.encode value = .ok bytes) →
        (∀ data, ∃ signature, signer.sign data = .ok signature) →
        ∃ response, SignedResponse.createWithDeviceAuth crates coset issuerSigned requested sessionTranscript signer
          deviceNamespaces = .ok response) := by
  refine ⟨fun response sessionTranscript h => signedNamespaces_iff laws h,
    fun issuerSigned requested sessionTranscript deviceNamespaces => ⟨fun response h => ?_, fun hencode hsign => ?_⟩⟩
  · obtain ⟨deviceSigned, hsigned, hns, hiff⟩ := verifyDeviceAuth_create laws hsigner h
    refine ⟨hiff.trans ⟨fun hown => ⟨deviceSigned, hsigned, hown⟩, ?_⟩, fun hback => ?_⟩
    · rintro ⟨deviceSigned', hsigned', hown⟩
      cases hsigned.symm.trans hsigned'
      exact hown
    · exact hiff.2 (ownEncoding_of_comesBack hback hns)
  · exact exists_createWithDeviceAuth hencode hsign issuerSigned requested sessionTranscript deviceNamespaces

/-! ## A licence with a device namespace -/

/-- The encoding of one namespace with one item. -/
def licenceBytes : Bytes := [161, 98, 110, 115, 161, 97, 107, 245]

def licenceNamespaces : DeviceNameSpaces :=
  ⟨[("ns", ⟨[("k", .bool true)], List.pairwise_singleton _ _⟩)], List.pairwise_singleton _ _⟩

/-- The encoding of the device authentication of a licence, for a transcript of empty texts. -/
def authInner : Bytes :=
  [132, 116, 68, 101, 118, 105, 99, 101, 65, 117, 116, 104, 101, 110, 116, 105, 99, 97, 116, 105, 111, 110, 131, 246,
    246, 132, 96, 96, 96, 96, 99, 109, 68, 76, 216, 24, 72] ++ licenceBytes

def authBytes : Bytes := [216, 24, 88, 45] ++ authInner

def plainTranscript : SessionTranscript := .newOid4vp "" "" "" ""

def licenceAuth : DeviceAuthentication := ⟨plainTranscript, "mDL", licenceNamespaces⟩

/-- The encoder and the decoder on the values of this section. -/
def deviceCrates : Crates :=
  { aliceCrates with
    encode
      | .map [(.text "ns", .map [(.text "k", .bool true)])] => .ok licenceBytes
      | .tag 24 (.bytes b) => .ok ([216, 24, 88, b.length.toUInt8] ++ b)
      | .array [.text "DeviceAuthentication", .array [.null, .null, .array [.text "", .text "", .text "", .text ""]],
          .text "mDL", .tag 24 (.bytes [161, 98, 110, 115, 161, 97, 107, 245])] => .ok authInner
      | _ => .error "unexpected value"
    decode bytes :=
      if bytes = licenceBytes then .ok (encodeDeviceNamespaces licenceNamespaces)
      else if bytes = [162] ++ licenceBytes.tail ++ [0, 0] then
        .ok (.map [(.text "ns", .map [(.text "k", .bool true)]), (.integer 0, .integer 0)])
      else .error "unexpected bytes" }

/-- The signature structure under a header with the algorithm of the device. -/
def deviceCoset : Coset where
  protectedHeader _ := [161, 1, 38]
  tbsDetached _ payload _ :=
    [132, 106, 83, 105, 103, 110, 97, 116, 117, 114, 101, 49, 67, 161, 1, 38, 64, 88, payload.length.toUInt8] ++
      payload

/-- The device signed the authentication of the licence, and nothing else. -/
def licenceSigned (auth : DeviceAuthentication) (_ : CoseSign1) (signature : Bytes) : Prop :=
  auth = licenceAuth ∧ signature = [1]

def licenceVerifier : CoseVerifier := fun data signature =>
  .ok (data = deviceCoset.tbsDetached ⟨[], .map [], none, []⟩ authBytes [] ∧ signature = [1])

def licenceSigner : CoseSigner where
  algorithm := -7
  sign data := if data = deviceCoset.tbsDetached ⟨[], .map [], none, []⟩ authBytes [] then .ok [1] else
    .error (.cose "not signed")

theorem licence_bytes : licenceAuth.toDeviceAuthenticationBytes deviceCrates = .ok authBytes := by rfl

theorem encode_licence {namespaces : DeviceNameSpaces}
    (h : deviceCrates.encode (encodeDeviceNamespaces namespaces) = .ok bytes) : namespaces = licenceNamespaces := by
  have hvalue : encodeDeviceNamespaces namespaces = encodeDeviceNamespaces licenceNamespaces := by
    unfold deviceCrates at h
    dsimp only at h
    split at h
    · assumption
    · rename_i heq
      cases heq
    · rename_i heq
      cases heq
    · cases h
  rw [← decodeDeviceNamespaces_encode namespaces, hvalue, decodeDeviceNamespaces_encode]

theorem licence_laws : DeviceLaws deviceCrates deviceCoset licenceVerifier licenceSigned where
  authentication {auth auth' value value' bytes} hvalue hvalue' h h' := by
    obtain ⟨nsBytes, hns, rfl⟩ := toCborValue_eq_ok_iff.1 hvalue
    obtain ⟨nsBytes', hns', rfl⟩ := toCborValue_eq_ok_iff.1 hvalue'
    unfold deviceCrates at h h'
    dsimp only at h h'
    split at h
    · rename_i heq
      cases heq
    · rename_i heq
      cases heq
    · rename_i heq
      split at h'
      · rename_i heq'
        cases heq'
      · rename_i heq'
        cases heq'
      · rename_i heq'
        rw [heq, heq']
      · cases h'
    · cases h
  tagged h h' := (List.append_inj (Except.ok.inj (h.trans h'.symm)) rfl).2
  payload sign1 sign1' bytes bytes' h := by
    have hsame : UInt8.ofNat bytes.length = UInt8.ofNat bytes'.length ∧ bytes = bytes' := by
      simpa [deviceCoset] using h
    exact hsame.2
  tbsDetached _ _ _ := rfl
  exact data signature := by
    rw [licenceVerifier, Except.ok.injEq, decide_eq_true_iff]
    constructor
    · rintro ⟨rfl, rfl⟩
      exact ⟨licenceAuth, ⟨[], .map [], none, []⟩, authBytes, ⟨rfl, rfl⟩, licence_bytes, rfl⟩
    · rintro ⟨auth, sign1, bytes, ⟨rfl, rfl⟩, hbytes, rfl⟩
      rw [licence_bytes] at hbytes
      cases hbytes
      exact ⟨rfl, rfl⟩
  single h h' := by rw [h.1, h'.1]

/-- The response of the licence with some bytes for its device namespaces. -/
def licenceResponse (namespacesBytes : Bytes) : SignedResponse :=
  { honestResponse with
    docType := "mDL"
    deviceSigned := some ⟨namespacesBytes, .signature ⟨[161, 1, 38], .map [], none, [1]⟩⟩ }

theorem licence_verifies {namespacesBytes : Bytes} (hdecode : deviceCrates.decode namespacesBytes = .ok value)
    (hsame : decodeDeviceNamespaces value = licenceNamespaces) : (licenceResponse namespacesBytes).verifyDeviceAuth
    deviceCrates deviceCoset plainTranscript licenceVerifier = .ok true := by
  have haccept : DeviceSigned.acceptDevice licenceVerifier [1]
      (deviceCoset.tbsDetached ⟨[161, 1, 38], .map [], none, [1]⟩ authBytes []) = .ok () :=
    bind_eq_ok_iff.2 ⟨true, by rw [licenceVerifier, decide_eq_true ⟨rfl, rfl⟩], rfl⟩
  refine bind_eq_ok_iff.2 ⟨_, rfl, bind_eq_ok_iff.2 ⟨value, mapError_eq_ok_iff.2 hdecode, ?_⟩⟩
  rw [hsame]
  refine bind_eq_ok_iff.2 ⟨authBytes, licence_bytes, ?_⟩
  exact unit_bind_eq_ok_iff.2 ⟨mapError_eq_ok_iff.2 haccept, rfl⟩

/-- The response that the device made carries the signed namespaces. -/
theorem licence_signed :
    SignedNamespaces deviceCrates licenceSigned (licenceResponse licenceBytes) plainTranscript := by
  have hsigner : ∀ auth sign1 bytes signature, auth.toDeviceAuthenticationBytes deviceCrates = .ok bytes →
      licenceSigner.sign (deviceCoset.tbsDetached sign1 bytes []) = .ok signature →
      licenceSigned auth sign1 signature := by
    intro auth sign1 bytes signature hbytes hsign
    unfold licenceSigner at hsign
    dsimp only at hsign
    split_ifs at hsign with heq
    cases hsign
    cases licence_laws.payload _ _ _ _ heq
    obtain ⟨htranscript, hdocType, nsBytes, hns, -⟩ := licence_laws.signed_bytes hbytes licence_bytes
    obtain ⟨transcript, docType, namespaces⟩ := auth
    obtain rfl : namespaces = licenceNamespaces := encode_licence hns
    dsimp only at htranscript hdocType
    subst htranscript hdocType
    exact ⟨rfl, rfl⟩
  refine ((deviceSignature_exact licence_laws hsigner).1 _ _ (licence_verifies rfl ?_)).2
    ⟨_, rfl, encodeDeviceNamespaces licenceNamespaces, rfl, ?_⟩
  · exact decodeDeviceNamespaces_encode licenceNamespaces
  · rfl

/-- The signature also covers a map with one entry more, from an integer to an integer, which the device never
signed. -/
theorem licence_extra_accepted :
    (licenceResponse ([162] ++ licenceBytes.tail ++ [0, 0])).verifyDeviceAuth deviceCrates deviceCoset
      plainTranscript licenceVerifier = .ok true ∧
      ¬SignedNamespaces deviceCrates licenceSigned (licenceResponse ([162] ++ licenceBytes.tail ++ [0, 0]))
        plainTranscript := by
  refine ⟨licence_verifies rfl rfl, ?_⟩
  rintro ⟨deviceSigned, signature, namespaces, sign1, hsigned, -, ⟨hauth, -⟩, hencode⟩
  cases hsigned
  cases hauth
  have hplain : deviceCrates.encode (encodeDeviceNamespaces licenceNamespaces) = .ok licenceBytes := rfl
  rw [hplain] at hencode
  cases hencode

end AffinidiTdk.Mdoc
