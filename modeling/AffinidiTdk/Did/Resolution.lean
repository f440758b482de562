/-
Resolving a DID without the network (`affinidi-did-common`, `did_method/resolve.rs`, with the derivation
of an X25519 key of `affinidi-crypto`, `ed25519.rs`). The document is about the DID it was asked for
exactly when that is no DID URL with more components and no `did:peer:0`.
-/
import AffinidiTdk.Did.PeerAgreement
import Mathlib.Data.List.TakeWhile

namespace AffinidiTdk.Did

open Fallible List DID

/-! ## Keys -/

/-- What else a resolution takes from other crates: the text of a URL, `set_fragment`, base58 both ways, the
writing of a varint and the X25519 form of an Ed25519 key. -/
structure KeyCrates (Url : Type) extends Decoders Url where
  urlText : Url → Text
  setFragment : Url → Text → Url
  fromBase58 : Text → Option (List UInt8)
  toBase58 : List UInt8 → Text
  varintEncode : ℕ → List UInt8
  toMontgomery : List UInt8 → Except String (List UInt8)

def ed25519Pub : ℕ := 0xed
def x25519Pub : ℕ := 0xec
def secp256k1Pub : ℕ := 0xe7
def p256Pub : ℕ := 0x1200
def p384Pub : ℕ := 0x1201

def DIDError.display : DIDError → String
  | missingPrefix => "DID must start with 'did:'"
  | invalidMethod m => s!"Invalid DID method: {m}"
  | invalidMethodSpecificId id => s!"Invalid method-specific ID: {id}"
  | invalidPath msg => s!"Invalid path: {msg}"
  | invalidQuery msg => s!"Invalid query: {msg}"
  | invalidFragment msg => s!"Invalid fragment: {msg}"
  | invalidUrl msg => s!"Invalid URL: {msg}"
  | resolutionError msg => s!"Resolution error: {msg}"

section Resolve

variable {Url : Type} (crates : KeyCrates Url) (reader : JsonReader)

/-- The X25519 multikey of an Ed25519 multikey, and its bytes. -/
def ed25519PublicToX25519 (ed25519Multikey : Text) : Except String (Text × List UInt8) := do
  let encoded ← (stripPrefix ['z'] ed25519Multikey).elim
    (throw "Decoding error: Expected multibase encoded string starting with 'z' prefix") pure
  let decoded ← (crates.fromBase58 encoded).elim (throw "Decoding error: Couldn't decode base58") pure
  let (codec, data) ← (crates.varintDecode decoded).mapError fun e =>
    s!"Encoding error: Invalid multicodec: varint decode: {e}"
  if codec ≠ ed25519Pub then
    throw s!"Key error: Expected ED25519 public key, instead received codec 0x{hex codec}"
  if data.length ≠ 32 then throw s!"Key error: Invalid public key byte length: expected 32, got {data.length}"
  let x25519 ← (crates.toMontgomery data).mapError fun e => s!"Key error: Couldn't create ED25519 VerifyingKey: {e}"
  pure ('z' :: crates.toBase58 (crates.varintEncode x25519Pub ++ x25519), x25519)

def multikeyMethod (id controller : Url) (multibase : Text) : VerificationMethod Url :=
  ⟨id, "Multikey", controller, none, none, [("publicKeyMultibase", .str (str multibase))]⟩

/-- The methods a key brings besides its own, and the keys to agree on others with. -/
def agreementKeys (did : DID Url) (identifier : Text) (vmId : Url) (codec : ℕ) :
    Except DIDError (List (VerificationMethod Url) × List Text) :=
  if codec = ed25519Pub then do
    let (x25519Encoded, _) ← (ed25519PublicToX25519 crates identifier).mapError fun e =>
      .resolutionError s!"Failed to derive X25519 from Ed25519: {e}"
    let x25519VmId := crates.setFragment did.url x25519Encoded
    pure ([multikeyMethod x25519VmId did.url x25519Encoded], [crates.urlText x25519VmId])
  else if codec = p256Pub ∨ codec = p384Pub ∨ codec = secp256k1Pub ∨ codec = x25519Pub then
    pure ([], [crates.urlText vmId])
  else throw (.resolutionError s!"Unsupported key codec: 0x{hex codec}")

/-- Resolve a `did:key`. -/
def resolveKey (did : DID Url) (identifier : Text) : Except DIDError (Document Url) := do
  let (codec, _) ← (decodeMultikeyWithCodec crates.toDecoders identifier).mapError fun e =>
    .resolutionError s!"Invalid multikey: {e}"
  let vmId := crates.setFragment did.url identifier
  let (derived, keyAgreement) ← agreementKeys crates did identifier vmId codec
  let vmRelationship := crates.urlText vmId
  pure ⟨did.url, multikeyMethod vmId did.url identifier :: derived, [vmRelationship], [vmRelationship], keyAgreement,
    [vmRelationship], [vmRelationship], [],
    [("@context", .arr [.str "https://www.w3.org/ns/did/v1", .str "https://w3id.org/security/multikey/v1"])]⟩

/-- Resolve a `did:peer:0` as the `did:key` of its multikey. -/
def resolveInceptionKey (identifier : Text) : Except DIDError (Document Url) := do
  let keyMultibase := (stripPrefix ['0'] identifier).getD identifier
  let keyDid ← (DID.fromStr crates.toDecoders ("did:key:".toList ++ keyMultibase)).mapError fun e =>
    .resolutionError s!"Invalid did:peer:0 key: {e.display}"
  match keyDid.method with
  | .key keyIdentifier _ _ => resolveKey crates keyDid keyIdentifier
  -- what begins with `did:key:` has no other method
  | method => throw (.resolutionError s!"DID method '{str method.name}' requires network resolution")

def DID.resolveLocal (did : DID Url) : Except DIDError (Document Url) :=
  did.resolve crates.toDecoders reader fun did =>
    match did.method with
    | .key identifier _ _ => resolveKey crates did identifier
    | method => resolveInceptionKey crates method.identifier

end Resolve

/-! ## What a document should say -/

section About

variable {Url : Type}

/-- The DID itself, without path, query and fragment. -/
def DID.bare (did : DID Url) : Text := didString did.method none none none

/-- Whether there is a path, a query or a fragment. -/
def DID.isUrl (did : DID Url) : Bool := did.path.isSome || did.query.isSome || did.fragment.isSome

/-- A `did:peer:0`. -/
def DIDMethod.isInceptionKey : DIDMethod → Bool
  | .peer _ .inceptionKey => true
  | _ => false

/-- Every reference of every relationship. -/
def Document.references (doc : Document Url) : List Text :=
  doc.authentication ++ doc.assertionMethod ++ doc.keyAgreement ++ doc.capabilityDelegation ++
    doc.capabilityInvocation

variable (crates : KeyCrates Url)

/-- The names of the verification methods. -/
def Document.methodIds (doc : Document Url) : List Text := doc.verificationMethod.map fun vm => crates.urlText vm.id

/-- The document is about the DID, and what it refers to is in it. -/
structure AboutDid (did : DID Url) (doc : Document Url) : Prop where
  id : crates.urlText doc.id = did.bare
  controller : ∀ vm ∈ doc.verificationMethod, vm.controller = doc.id
  methodId : ∀ vm ∈ doc.methodIds crates, ∃ fragment, '#' ∉ fragment ∧ vm = did.bare ++ '#' :: fragment
  distinct : (doc.methodIds crates).Nodup
  present : ∀ reference ∈ doc.references, reference ∈ doc.methodIds crates

/-- What the crates are relied on for: the text of a DID URL is kept, a fragment is put behind a number sign in
the place of the one before, and base58 and varints are read as they were written. -/
structure KeyCrates.Documented : Prop extends crates.toDecoders.Documented where
  urlText_parseUrl : ∀ s ∈ Grammar.didUrl, ∀ url, crates.parseUrl s = .ok url → crates.urlText url = s
  urlText_setFragment : ∀ url fragment, (∀ c ∈ fragment, isEntryChar c = true) →
    crates.urlText (crates.setFragment url fragment) = (crates.urlText url).takeWhile (· ≠ '#') ++ '#' :: fragment
  base58_alphabet : ∀ bytes, ∀ c ∈ crates.toBase58 bytes, c.isAlphanum = true
  fromBase58_toBase58 : ∀ bytes, crates.fromBase58 (crates.toBase58 bytes) = some bytes
  varintDecode_x25519 : ∀ bytes, crates.varintDecode (crates.varintEncode x25519Pub ++ bytes) =
    .ok (x25519Pub, bytes)

end About

section Results

variable {Url : Type} {crates : KeyCrates Url} {reader : JsonReader} {did : DID Url} {doc : Document Url}

/-! ## Texts of DIDs -/

theorem DID.toText_eq (did : DID Url) :
    did.toText = did.bare ++ (component '/' did.path ++ component '?' did.query ++ component '#' did.fragment) := by
  unfold toText bare didString
  simp only [component_none, append_assoc, append_nil]

theorem DID.toText_eq_bare_iff (did : DID Url) : did.toText = did.bare ↔ did.isUrl = false := by
  obtain ⟨method, path, query, fragment, url⟩ := did
  rw [toText_eq, append_right_eq_self]
  unfold isUrl
  cases path <;> cases query <;> cases fragment <;> simp [component]

theorem DID.Valid.bare_mem (h : did.Valid crates.toDecoders) (fragment : Option Text)
    (hfragment : ∀ text ∈ fragment, validateFragment text = .ok ()) : did.bare ++
      component '#' fragment ∈ Grammar.didUrl := by
  refine mem_didUrl_iff.2 ⟨did.method.name, did.method.identifier, none, none, fragment, h.name_ok,
    ⟨h.wellFormed.id_ok, (fun _ h => nomatch h), (fun _ h => nomatch h), hfragment⟩, ?_⟩
  rw [bare, didString_eq]
  unfold didTail
  generalize "did:".toList = start
  simp only [component_none, append_assoc, cons_append, append_nil, nil_append]

theorem DID.Valid.toText_mem (h : did.Valid crates.toDecoders) : did.toText ∈ Grammar.didUrl :=
  mem_didUrl_iff.2 ⟨did.method.name, did.method.identifier, did.path, did.query, did.fragment, h.name_ok,
    h.wellFormed, didString_eq _ _ _ _⟩

theorem DID.Valid.urlText_url (hcrates : crates.Documented) (h : did.Valid crates.toDecoders) :
    crates.urlText did.url = did.toText := hcrates.urlText_parseUrl _ h.toText_mem _ h.url_ok

theorem DID.Valid.numberSign_not_mem (h : did.Valid crates.toDecoders) : '#' ∉ did.bare := by
  have hid : '#' ∉ did.method.identifier := fun hmem => absurd (h.wellFormed.separated.id_plain '#' hmem) (by decide)
  have hname : '#' ∉ did.method.name := by
    intro hmem
    have hok := h.name_ok
    rw [isMethodName, Bool.and_eq_true] at hok
    exact absurd (all_eq_true.1 hok.2 '#' hmem) (by decide)
  have hdid : '#' ∉ "did:".toList := by decide
  unfold bare didString
  simp only [component_none, append_nil, mem_append, mem_singleton, not_or]
  exact ⟨⟨⟨hdid, hname⟩, by decide⟩, hid⟩

theorem DID.Valid.urlText_setFragment (hcrates : crates.Documented) (h : did.Valid crates.toDecoders)
    (hurl : did.isUrl = false) {fragment : Text} (hfragment : ∀ c ∈ fragment, isEntryChar c = true) :
    crates.urlText (crates.setFragment did.url fragment) = did.bare ++ '#' :: fragment := by
  rw [hcrates.urlText_setFragment _ _ hfragment, h.urlText_url hcrates, did.toText_eq_bare_iff.2 hurl]
  congr 1
  refine takeWhile_eq_self_iff.2 fun c hc => decide_eq_true ?_
  rintro rfl
  exact h.numberSign_not_mem hc

theorem numberSign_not_mem_entry {text : Text} (h : ∀ c ∈ text, isEntryChar c = true) : '#' ∉ text :=
  fun hmem => absurd (h '#' hmem) (by decide)

/-! ## Keys -/

theorem ed25519PublicToX25519_eq_ok (hcrates : crates.Documented) {multikey : Text} {x25519 : Text × List UInt8}
    (h : ed25519PublicToX25519 crates multikey = .ok x25519) :
    x25519.1 ≠ multikey ∧ ∀ c ∈ x25519.1, isEntryChar c = true := by
  obtain ⟨encoded, hencoded, h⟩ := bind_eq_ok_iff.1 h
  obtain ⟨decoded, hdecoded, h⟩ := bind_eq_ok_iff.1 h
  obtain ⟨⟨codec, data⟩, hcodec, h⟩ := bind_eq_ok_iff.1 h
  obtain ⟨hed, h⟩ := guard_eq_ok_iff.1 h
  obtain ⟨-, h⟩ := guard_eq_ok_iff.1 h
  obtain ⟨key, -, h⟩ := bind_eq_ok_iff.1 h
  cases h
  obtain rfl := stripPrefix_eq_some_iff.1 (elim_throw_eq_ok_iff.1 hencoded)
  constructor
  · intro hsame
    -- read back, the text would have both codecs
    obtain rfl : crates.toBase58 (crates.varintEncode x25519Pub ++ key) = encoded := (List.cons.inj hsame).2
    have hread := elim_throw_eq_ok_iff.1 hdecoded
    rw [hcrates.fromBase58_toBase58] at hread
    cases hread
    have hvarint := mapError_eq_ok_iff.1 hcodec
    rw [hcrates.varintDecode_x25519] at hvarint
    cases hvarint
    exact hed (by decide)
  · intro c hc
    rcases mem_cons.1 hc with rfl | hc
    · rfl
    · rw [isEntryChar, hcrates.base58_alphabet _ c hc]
      rfl

variable {identifier : Text}

theorem resolveKey_id (h : resolveKey crates did identifier = .ok doc) : doc.id = did.url := by
  obtain ⟨⟨codec, data⟩, -, h⟩ := bind_eq_ok_iff.1 h
  obtain ⟨⟨derived, keyAgreement⟩, -, h⟩ := bind_eq_ok_iff.1 h
  rw [← Except.ok.inj h]

theorem resolveKey_about (hcrates : crates.Documented) (hvalid : did.Valid crates.toDecoders)
    (hurl : did.isUrl = false) (h : resolveKey crates did identifier = .ok doc) : AboutDid crates did doc := by
  obtain ⟨⟨codec, data⟩, hdecode, h⟩ := bind_eq_ok_iff.1 h
  obtain ⟨⟨derived, keyAgreement⟩, hkeys, h⟩ := bind_eq_ok_iff.1 h
  cases h
  have hidentifier := (decodeMultikey_chars hcrates.toDocumented (mapError_eq_ok_iff.1 hdecode)).2
  have hown := hvalid.urlText_setFragment hcrates hurl hidentifier
  have hid : crates.urlText did.url = did.bare := (hvalid.urlText_url hcrates).trans (did.toText_eq_bare_iff.2 hurl)
  unfold agreementKeys at hkeys
  split_ifs at hkeys with hed hother
  · obtain ⟨x25519, hx25519, hkeys⟩ := bind_eq_ok_iff.1 hkeys
    cases hkeys
    obtain ⟨hne, hchars⟩ := ed25519PublicToX25519_eq_ok hcrates (mapError_eq_ok_iff.1 hx25519)
    have hderived := hvalid.urlText_setFragment hcrates hurl hchars
    have hmethods : ∀ references services parameters, Document.methodIds crates
        ⟨did.url, [multikeyMethod (crates.setFragment did.url identifier) did.url identifier,
          multikeyMethod (crates.setFragment did.url x25519.1) did.url x25519.1], references, references,
          [crates.urlText (crates.setFragment did.url x25519.1)], references, references, services, parameters⟩ =
        [did.bare ++ '#' :: identifier, did.bare ++ '#' :: x25519.1] := by
      intro references services parameters
      rw [← hown, ← hderived]
      rfl
    refine ⟨hid, ?_, ?_, ?_, ?_⟩
    · simp [multikeyMethod]
    · rw [hmethods]
      rintro vm hvm
      simp only [mem_cons, not_mem_nil, or_false] at hvm
      rcases hvm with rfl | rfl
      · exact ⟨identifier, numberSign_not_mem_entry hidentifier, rfl⟩
      · exact ⟨x25519.1, numberSign_not_mem_entry hchars, rfl⟩
    · rw [hmethods]
      simpa using fun heq => hne heq.symm
    · rw [hmethods]
      simp [Document.references, hown, hderived]
  · cases hkeys
    have hmethods : ∀ references services parameters, Document.methodIds crates
        ⟨did.url, [multikeyMethod (crates.setFragment did.url identifier) did.url identifier], references,
          references,
          references, references, references, services, parameters⟩ = [did.bare ++ '#' :: identifier] := by
      intro references services parameters
      rw [← hown]
      rfl
    refine ⟨hid, ?_, ?_, ?_, ?_⟩
    · simp [multikeyMethod]
    · rw [hmethods]
      rintro vm hvm
      obtain rfl := mem_singleton.1 hvm
      exact ⟨identifier, numberSign_not_mem_entry hidentifier, rfl⟩
    · rw [hmethods]
      exact nodup_singleton _
    · rw [hmethods]
      simp [Document.references, hown]

/-! ## Peer DIDs -/

theorem keyId_injective (text : Text) : Function.Injective (keyId text) := by
  intro m n h
  have hnumbers : (toString m).toList = (toString n).toList := append_cancel_left h
  have hdigits : Nat.toDigits 10 m = Nat.toDigits 10 n := by simpa using hnumbers
  rw [← Nat.ofDigitChars_ten_toDigits (n := m), hdigits, Nat.ofDigitChars_ten_toDigits]

/-- The names of the keys that were counted. -/
def countedIds (did : DID Url) (count : ℕ) : List Text := (List.range count).map fun n => keyId did.toText (n + 1)

/-- The document under construction names its keys by their numbers and refers to no others. -/
structure PeerAbout (crates : KeyCrates Url) (did : DID Url) (doc : PeerDocument Url) : Prop where
  ids : (doc.verificationMethods.map fun vm => crates.urlText vm.id) = countedIds did doc.keyCount
  controller : ∀ vm ∈ doc.verificationMethods, vm.controller = did.url
  present : ∀ reference ∈ doc.authentication ++ doc.assertionMethod ++ doc.keyAgreement ++
    doc.capabilityDelegation ++
    doc.capabilityInvocation, reference ∈ countedIds did doc.keyCount

theorem peerAbout_empty : PeerAbout crates did PeerDocument.empty := ⟨rfl, nofun, nofun⟩

theorem PeerAbout.key {part : PeerDocument Url} (h : PeerAbout crates did part) {id : Url}
    (hid : crates.urlText id = keyId did.toText (part.keyCount + 1)) (multibase : Text) (purpose : PeerPurpose) :
    PeerAbout crates did (PeerDocument.relate (keyId did.toText (part.keyCount + 1))
      { part with
        verificationMethods := part.verificationMethods ++ [multikeyMethod id did.url multibase],
        keyCount := part.keyCount + 1 } purpose) := by
  have hcounted : countedIds did (part.keyCount + 1) =
      countedIds did part.keyCount ++ [keyId did.toText (part.keyCount + 1)] := by
    rw [countedIds, range_succ, map_append]
    rfl
  have hids : ((part.verificationMethods ++
    [multikeyMethod id did.url multibase]).map fun vm => crates.urlText vm.id) =
      countedIds did (part.keyCount + 1) := by
    rw [map_append, h.ids, hcounted, map_singleton]
    show _ ++ [crates.urlText id] = _
    rw [hid]
  have hcontroller : ∀ vm ∈ part.verificationMethods ++ [multikeyMethod id did.url multibase], vm.controller =
    did.url := by
    intro vm hvm
    rcases mem_append.1 hvm with hold | hnew
    · exact h.controller vm hold
    · rw [mem_singleton.1 hnew]
      rfl
  have hpresent : ∀ reference, reference ∈ countedIds did part.keyCount ∨ reference =
    keyId did.toText (part.keyCount + 1) →
      reference ∈ countedIds did (part.keyCount + 1) := by
    intro reference hreference
    rw [hcounted, mem_append, mem_singleton]
    exact hreference
  have hkept := h.present
  simp only [mem_append] at hkept
  cases purpose
  all_goals
    refine ⟨hids, hcontroller, fun reference hreference => hpresent reference ?_⟩
    simp only [PeerDocument.relate, mem_append, mem_singleton] at hreference
    grind

variable {part part' : PeerDocument Url}

/-- One entry of a `did:peer:2` keeps the document about the DID. -/
theorem PeerAbout.step (hids : ∀ n url, crates.parseUrl (keyId did.toText n) = .ok url → crates.urlText url =
    keyId did.toText n) (h : PeerAbout crates did part) {entry : Text}
    (hstep : resolvePart crates.toDecoders reader did part entry = .ok part') : PeerAbout crates did part' := by
  cases entry with
  | nil => exact Except.ok.inj hstep ▸ h
  | cons purposeChar data =>
    rw [resolvePart] at hstep
    cases hpurpose : PeerPurpose.fromChar purposeChar with
    | none =>
      simp only [hpurpose] at hstep
      cases hstep
    | some purpose =>
      simp only [hpurpose] at hstep
      cases purpose with
      | service =>
        obtain ⟨service, -, hstep⟩ := bind_eq_ok_iff.1 hstep
        obtain ⟨didService, -, hstep⟩ := bind_eq_ok_iff.1 hstep
        cases hstep
        exact ⟨h.ids, h.controller, h.present⟩
      | assertion | delegation | encryption | invocation | verification =>
        obtain ⟨id, hid, hstep⟩ := bind_eq_ok_iff.1 hstep
        cases hstep
        exact h.key (hids _ _ (mapError_eq_ok_iff.1 hid)) data _

/-- So do all of them. -/
theorem PeerAbout.run (hids : ∀ n url, crates.parseUrl (keyId did.toText n) = .ok url → crates.urlText url =
    keyId did.toText n) {entries : List Text} (h : PeerAbout crates did part)
    (hrun : entries.foldlM (resolvePart crates.toDecoders reader did) part = .ok part') :
    PeerAbout crates did part' := by
  induction entries generalizing part with
  | nil => exact Except.ok.inj hrun ▸ h
  | cons entry entries ih =>
    obtain ⟨next, hnext, hrest⟩ := bind_eq_ok_iff.1 hrun
    exact ih (h.step hids hnext) hrest

theorem keyId_eq (text : Text) (n : ℕ) : keyId text n = text ++ '#' :: ("key-".toList ++ (toString n).toList) := by
  have hkey : "#key-".toList = '#' :: "key-".toList := by rfl
  rw [keyId, hkey, append_assoc, cons_append]

theorem validate_keyNumber (n : ℕ) : validateFragment ("key-".toList ++ (toString n).toList) = .ok () :=
  validate_numbered (all_eq_true.1 rfl) n

theorem keyNumber_plain (n : ℕ) : '#' ∉ "key-".toList ++ (toString n).toList := by
  intro hmem
  rcases mem_append.1 hmem with hkey | hnumber
  · exact absurd hkey (by decide)
  · have hdigits : '#' ∈ Nat.toDigits 10 n := by simpa using hnumber
    exact absurd (Nat.isDigit_of_mem_toDigits (by decide) (by decide) hdigits) (by decide)

theorem resolvePeer2_id (h : resolvePeer2 crates.toDecoders reader did identifier = .ok doc) :
    doc.id = did.url := by
  obtain ⟨part, -, h⟩ := bind_eq_ok_iff.1 h
  rw [← Except.ok.inj h]

theorem resolvePeer2_about (hcrates : crates.Documented) (hvalid : did.Valid crates.toDecoders)
    (hurl : did.isUrl = false) (h : resolvePeer2 crates.toDecoders reader did identifier = .ok doc) :
    AboutDid crates did doc := by
  obtain ⟨part, hrun, h⟩ := bind_eq_ok_iff.1 h
  cases h
  have htext : did.toText = did.bare := did.toText_eq_bare_iff.2 hurl
  have hids : ∀ n url, crates.parseUrl (keyId did.toText n) = .ok url → crates.urlText url = keyId did.toText n := by
    intro n url hparse
    refine hcrates.urlText_parseUrl _ ?_ url hparse
    rw [htext, keyId_eq]
    exact hvalid.bare_mem (some _) fun text hsome => Option.some.inj hsome ▸ validate_keyNumber n
  have habout := peerAbout_empty.run hids hrun
  have hmethods : ∀ keyAgreement services parameters, Document.methodIds crates
      ⟨did.url, part.verificationMethods, part.authentication, part.assertionMethod, keyAgreement,
        part.capabilityDelegation, part.capabilityInvocation, services, parameters⟩ = countedIds did part.keyCount :=
    fun _ _ _ => habout.ids
  refine ⟨(hvalid.urlText_url hcrates).trans htext, habout.controller, ?_, ?_, ?_⟩
  · rw [hmethods]
    intro vm hvm
    obtain ⟨n, -, rfl⟩ := mem_map.1 hvm
    exact ⟨_, keyNumber_plain (n + 1), by rw [keyId_eq, htext]⟩
  · rw [hmethods]
    refine List.Nodup.map ?_ nodup_range
    exact fun m n heq => Nat.succ.inj (keyId_injective _ heq)
  · rw [hmethods]
    exact habout.present

/-! ## Resolution -/

theorem resolveInceptionKey_id (hcrates : crates.Documented)
    (h : resolveInceptionKey crates identifier = .ok doc) : ∃ rest, crates.urlText doc.id = "did:key:".toList ++
    rest := by
  obtain ⟨keyDid, hkey, h⟩ := bind_eq_ok_iff.1 h
  have hvalid := valid_of_fromStr (mapError_eq_ok_iff.1 hkey)
  cases hmethod : keyDid.method with
  | key keyIdentifier codec keyBytes =>
    simp only [hmethod] at h
    rw [resolveKey_id h, hvalid.urlText_url hcrates, toText, didString_eq, hmethod]
    exact ⟨didTail keyIdentifier keyDid.path keyDid.query keyDid.fragment, rfl⟩
  | peer | web | jwk | ethr | pkh | webvh | cheqd | scid | ebsi | other =>
    simp only [hmethod] at h
    cases h

/-- **What the document is about**: the DID that was asked for exactly when no path, query or fragment
comes with it and it is no `did:peer:0`. -/
theorem resolveLocal_about_iff (hcrates : crates.Documented) {s : Text}
    (hdid : fromStr crates.toDecoders s = .ok did)
    (hdoc : did.resolveLocal crates reader = .ok doc) :
    AboutDid crates did doc ↔ did.isUrl = false ∧ did.method.isInceptionKey = false := by
  have hvalid := valid_of_fromStr hdid
  have hisUrl : doc.id = did.url → AboutDid crates did doc → did.isUrl = false := by
    intro hid habout
    rw [← did.toText_eq_bare_iff, ← hvalid.urlText_url hcrates, ← hid]
    exact habout.id
  unfold resolveLocal resolve at hdoc
  cases hmethod : did.method with
  | key identifier codec keyBytes =>
    simp only [hmethod] at hdoc
    constructor
    · exact fun habout => ⟨hisUrl (resolveKey_id hdoc) habout, rfl⟩
    · exact fun hplain => resolveKey_about hcrates hvalid hplain.1 hdoc
  | peer identifier numalgo =>
    cases numalgo with
    | inceptionKey =>
      simp only [hmethod] at hdoc
      refine iff_of_false (fun habout => ?_) (fun hplain => Bool.noConfusion hplain.2)
      -- `did:key:` and `did:peer:` differ at the fifth character
      obtain ⟨rest, hrest⟩ := resolveInceptionKey_id hcrates hdoc
      have hid := habout.id
      rw [hrest, bare, didString_eq, hmethod] at hid
      have hfifth : some 'k' = some 'p' := congrArg (fun text : Text => text[4]?) hid
      exact absurd (Option.some.inj hfifth) (by decide)
    | multipleKeys =>
      simp only [hmethod] at hdoc
      constructor
      · exact fun habout => ⟨hisUrl (resolvePeer2_id hdoc) habout, rfl⟩
      · exact fun hplain => resolvePeer2_about hcrates hvalid hplain.1 hdoc
    | genesisDoc =>
      simp only [hmethod] at hdoc
      cases hdoc
  | web | jwk | ethr | pkh | webvh | cheqd | scid | ebsi | other =>
    simp only [hmethod] at hdoc
    cases hdoc

end Results

/-! ## Examples -/

def exampleKey : Text := "zDnaerDaTF5BXEavCrfRZEk316dpbLsfPDZ3WJ5hRTPFU2169".toList

def exampleKeyBytes : List UInt8 :=
  [128, 36, 3, 127, 35, 88, 48, 221, 61, 239, 167, 34, 239, 26, 162, 73, 214, 160, 221, 187, 164, 249, 144, 176, 129,
    117, 56, 147, 63, 87, 54, 64, 101, 53, 66]

def letter (n : ℕ) : Char := Char.ofNat (97 + n)

def letters (bytes : List UInt8) :
    Text := bytes.flatMap fun byte => [letter (byte.toNat / 16), letter (byte.toNat % 16)]

def ofLetters : Text → Option (List UInt8)
  | [] => some []
  | high :: low :: rest => (ofLetters rest).map (UInt8.ofNat ((high.toNat - 97) * 16 + (low.toNat - 97)) :: ·)
  | [_] => none

theorem letter_digit : ∀ n < 16, (letter n).toNat - 97 = n ∧ (letter n).isAlphanum = true := by decide

theorem ofLetters_letters (bytes : List UInt8) : ofLetters (letters bytes) = some bytes := by
  induction bytes with
  | nil => rfl
  | cons byte bytes ih =>
    have hbyte : byte.toNat < 256 := UInt8.toNat_lt byte
    have hhigh := (letter_digit (byte.toNat / 16) (by omega)).1
    have hlow := (letter_digit (byte.toNat % 16) (by omega)).1
    show (ofLetters (letters bytes)).map _ = _
    rw [ih, hhigh, hlow, Nat.div_add_mod' byte.toNat 16, UInt8.ofNat_toNat]
    rfl

/-- URLs as their texts, one base58 text, that of the P-256 key, and varints of one or two bytes. An
X25519 key is not derived from it, so that any writing of bytes as text will do. -/
def exampleCrates : KeyCrates Text where
  parseUrl := .ok
  bs58Decode text := if text = exampleKey.tail then .ok exampleKeyBytes else .error "invalid character"
  varintDecode
    | first :: second :: rest =>
      if first < 128 then .ok (first.toNat, second :: rest)
      else if second < 128 then .ok (first.toNat - 128 + 128 * second.toNat, rest)
      else .error "not enough bytes"
    | _ => .error "not enough bytes"
  urlText := id
  setFragment url fragment := url.takeWhile (· ≠ '#') ++ '#' :: fragment
  fromBase58 := ofLetters
  toBase58 := letters
  varintEncode codec := [UInt8.ofNat (codec % 128 + 128), UInt8.ofNat (codec / 128)]
  toMontgomery _ := .error "not a key"

theorem exampleCrates_documented : exampleCrates.Documented where
  parseUrl_didUrl s _ := ⟨s, rfl⟩
  bs58_alphabet text bytes h := by
    have htext : text = exampleKey.tail := by
      by_contra hne
      have hbad : exampleCrates.bs58Decode text = .error "invalid character" := if_neg hne
      rw [hbad] at h
      cases h
    rw [htext]
    exact all_eq_true.1 rfl
  urlText_parseUrl s _ url h := (Except.ok.inj h).symm
  urlText_setFragment _ _ _ := rfl
  base58_alphabet bytes c hc := by
    obtain ⟨byte, -, hc⟩ := mem_flatMap.1 hc
    have hbyte : byte.toNat < 256 := UInt8.toNat_lt byte
    simp only [mem_cons, not_mem_nil, or_false] at hc
    rcases hc with rfl | rfl
    · exact (letter_digit _ (by omega)).2
    · exact (letter_digit _ (by omega)).2
  fromBase58_toBase58 := ofLetters_letters
  varintDecode_x25519 _ := rfl

def noServices : JsonReader := ⟨fun _ => none⟩

/-- The document of the key under a text of its DID. -/
def exampleDocument (text methodId : Text) : Document Text :=
  ⟨text, [multikeyMethod methodId text exampleKey], [methodId], [methodId], [methodId], [methodId], [methodId], [],
    [("@context", .arr [.str "https://www.w3.org/ns/did/v1", .str "https://w3id.org/security/multikey/v1"])]⟩

def exampleKeyDid (query : Option Text) : DID Text :=
  ⟨.key exampleKey .p256Pub (exampleKeyBytes.drop 2), none, query, none,
    "did:key:".toList ++ exampleKey ++ component '?' query⟩

theorem resolveLocal_about_plain :
    fromStr exampleCrates.toDecoders ("did:key:".toList ++ exampleKey) = .ok (exampleKeyDid none) ∧
      AboutDid exampleCrates (exampleKeyDid none) (exampleDocument ("did:key:".toList ++ exampleKey)
        ("did:key:".toList ++ exampleKey ++ '#' :: exampleKey)) := by
  have hdid : fromStr exampleCrates.toDecoders ("did:key:".toList ++ exampleKey) = .ok (exampleKeyDid none) := by
    decide +kernel
  have hdoc : (exampleKeyDid none).resolveLocal exampleCrates noServices = .ok (exampleDocument
      ("did:key:".toList ++ exampleKey) ("did:key:".toList ++ exampleKey ++ '#' :: exampleKey)) := by
    decide +kernel
  exact ⟨hdid, (resolveLocal_about_iff exampleCrates_documented hdid hdoc).2 ⟨rfl, rfl⟩⟩

/-- With a query the document is about the DID URL, and that of the `did:peer:0` is about the `did:key`. -/
theorem resolveLocal_about_others :
    (∃ did doc, fromStr exampleCrates.toDecoders ("did:key:".toList ++ exampleKey ++ "?versionId=1".toList) =
      .ok did ∧ did.resolveLocal exampleCrates noServices = .ok doc ∧
      doc.id = "did:key:".toList ++ exampleKey ++ "?versionId=1".toList ∧ ¬AboutDid exampleCrates did doc) ∧
    ∃ did doc, fromStr exampleCrates.toDecoders ("did:peer:0".toList ++ exampleKey) = .ok did ∧
      did.resolveLocal exampleCrates noServices = .ok doc ∧ doc.id = "did:key:".toList ++ exampleKey ∧
      ¬AboutDid exampleCrates did doc := by
  constructor
  · refine ⟨exampleKeyDid (some "versionId=1".toList), exampleDocument
      ("did:key:".toList ++ exampleKey ++ "?versionId=1".toList)
      ("did:key:".toList ++ exampleKey ++ "?versionId=1".toList ++
        '#' :: exampleKey), by decide +kernel, by decide +kernel,
      rfl, fun habout => ?_⟩
    exact absurd habout.id (by decide +kernel)
  · refine ⟨⟨.peer ('0' :: exampleKey) .inceptionKey, none, none, none, "did:peer:0".toList ++ exampleKey⟩,
      exampleDocument ("did:key:".toList ++ exampleKey) ("did:key:".toList ++ exampleKey ++ '#' :: exampleKey),
      by decide +kernel, by decide +kernel, rfl, fun habout => ?_⟩
    exact absurd habout.id (by decide +kernel)

end AffinidiTdk.Did
