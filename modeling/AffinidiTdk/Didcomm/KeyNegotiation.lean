/-
The negotiation of a key agreement key (`affinidi-did-common`, `key_negotiation.rs`, `document.rs`,
`verification_method.rs`): the keys of the recipient's document are resolved by their ids, what does not resolve is
passed over, and the first curve of a preference that both sides have is chosen. An entry of the document may refer to
its method by a fragment; such an id is looked up as it stands.
-/
import AffinidiTdk.Crypto.Keys
import AffinidiTdk.Didcomm.MetaEnvelope

namespace AffinidiTdk.Didcomm

open List Option
open Fallible

/-- A document with its id. The ids of its methods are URLs, so none of them is a fragment alone. -/
structure DidDocument extends Document where
  id : String
  embedded_absolute : ∀ vm, .verificationMethod vm ∈ keyAgreement → vm.id.toList.head? ≠ some '#'
  method_absolute : ∀ vm ∈ verificationMethod, vm.id.toList.head? ≠ some '#'

/-- A public key by its curve; the point of an elliptic curve is what its crate reads from bytes. -/
inductive PublicKeyAgreement (Point : Type)
  | x25519 (bytes : Bytes)
  | p256 (point : Point)
  | k256 (point : Point)
  | p384 (point : Point)
  | p521 (point : Point)
  deriving DecidableEq

/-- Why no pair of keys was chosen. -/
inductive KeyNegotiationError
  | notFound (kid : String)
  | unsupportedCodec (codec : ℕ)
  | invalidMaterial (msg : String)
  | invalidKeyBytes (msg : String)
  | noCommonCurve (sender recipient : List Curve)
  | noUsableRecipientKey (tried : List String)

/-- The curve both sides have and the key of the recipient on it. -/
structure AuthcryptMatch (Point : Type) where
  curve : Curve
  recipientKid : String
  recipientPub : PublicKeyAgreement Point

/-- What the crates for multikeys, JWKs and elliptic curves decode. -/
structure KeyDecoders (Point : Type) where
  decodeMultikeyWithCodec : String → Except String (ℕ × Bytes)
  parseJwk : Json → Except String Crypto.JWK
  fromSec1Bytes : Curve → Bytes → Except String Point

namespace KeyNegotiation

variable {Point : Type}

def curveOf : PublicKeyAgreement Point → Curve
  | .x25519 _ => .x25519
  | .p256 _ => .p256
  | .k256 _ => .k256
  | .p384 _ => .p384
  | .p521 _ => .p521

/-! ## Keys of verification methods -/

section

variable (decoders : KeyDecoders Point)

def jwkKeyType (jwk : Crypto.JWK) : Crypto.KeyType :=
  match jwk.params with
  | .ec params => match params.curve with
    | "P-256" => .p256
    | "secp256k1" => .secp256k1
    | "P-384" => .p384
    | "P-521" => .p521
    | _ => .unknown
  | .okp params => match params.curve with
    | "Ed25519" => .ed25519
    | "X25519" => .x25519
    | _ => .unknown

/-- The text of an error of a verification method. -/
def vmError (msg : String) : String := "VerificationMethod Error: " ++ msg

def jwkBase64 (text : List Char) : Except String Bytes :=
  (Base64.decode text).elim (throw (vmError "invalid base64url in JWK")) pure

def jwkSec1 (params : Crypto.ECParams) : Except String Bytes := do
  let x ← jwkBase64 params.x
  let y ← jwkBase64 params.y
  pure (4 :: (x ++ y))

/-- The codec of a key type and the bytes under it. -/
def withCodec (codec : ℕ) (bytes : Except String Bytes) : Except String (ℕ × Bytes) := bytes.map fun bytes =>
  (codec, bytes)

def jwkToCodecBytes (jwk : Crypto.JWK) : Except String (ℕ × Bytes) :=
  match jwk.params, jwkKeyType jwk with
  | .okp params, .ed25519 => withCodec 0xed (jwkBase64 params.x)
  | .okp params, .x25519 => withCodec 0xec (jwkBase64 params.x)
  | .ec params, .p256 => withCodec 0x1200 (jwkSec1 params)
  | .ec params, .p384 => withCodec 0x1201 (jwkSec1 params)
  | .ec params, .p521 => withCodec 0x1202 (jwkSec1 params)
  | .ec params, .secp256k1 => withCodec 0xe7 (jwkSec1 params)
  | _, _ => .error (vmError "unsupported JWK key type for public key extraction: Unknown")

/-- `VerificationMethod::decode_public_key`: the multibase form, else the JWK. -/
def decodePublicKey (vm : VerificationMethod) : Except String (ℕ × Bytes) :=
  match vm.propertySet.strField "publicKeyMultibase" with
  | some mb => (decoders.decodeMultikeyWithCodec mb).mapError fun e =>
      vmError ("invalid publicKeyMultibase: " ++ e)
  | none => match vm.propertySet.get? "publicKeyJwk" with
    | some jwkValue => do
      let jwk ← (decoders.parseJwk jwkValue).mapError fun e => vmError ("invalid publicKeyJwk: " ++ e)
      jwkToCodecBytes jwk
    | none => .error (vmError "verification method has neither publicKeyMultibase nor publicKeyJwk")

/-- The curve of a codec. -/
def curveOfCodec (codec : ℕ) : Except KeyNegotiationError Curve :=
  if codec = 0xec then .ok .x25519
  else if codec = 0x1200 then .ok .p256
  else if codec = 0xe7 then .ok .k256
  else if codec = 0x1201 then .ok .p384
  else if codec = 0x1202 then .ok .p521
  else .error (.unsupportedCodec codec)

/-- A point that its crate reads from bytes. -/
def sec1Point (curve : Curve) (name : String) (bytes : Bytes) : Except String Point :=
  (decoders.fromSec1Bytes curve bytes).mapError fun e => s!"Key agreement error: invalid {name} public key: {e}"

/-- `PublicKeyAgreement::from_raw_bytes`. -/
def fromRawBytes (curve : Curve) (bytes : Bytes) : Except String (PublicKeyAgreement Point) :=
  match curve with
  | .x25519 =>
    if bytes.length = 32 then .ok (.x25519 bytes) else .error
      "Key agreement error: X25519 public key must be 32 bytes"
  | .p256 => (sec1Point decoders .p256 "P-256" bytes).map .p256
  | .k256 => (sec1Point decoders .k256 "K-256" bytes).map .k256
  | .p384 => (sec1Point decoders .p384 "P-384" bytes).map .p384
  | .p521 => (sec1Point decoders .p521 "P-521" bytes).map .p521

/-- The key of a verification method. -/
def keyOf (vm : VerificationMethod) : Except KeyNegotiationError (PublicKeyAgreement Point) := do
  let (codec, keyBytes) ← (decodePublicKey decoders vm).mapError .invalidMaterial
  let curve ← curveOfCodec codec
  (fromRawBytes decoders curve keyBytes).mapError .invalidKeyBytes

/-! ## Negotiation -/

variable (doc : DidDocument)

def resolvePublicKeyAgreement (kid : String) : Except KeyNegotiationError (PublicKeyAgreement Point) := do
  let vm ← (doc.methodFor doc.keyAgreement kid).elim (throw (.notFound kid)) pure
  keyOf decoders vm

/-- The keys that resolve, in the order of their ids. -/
def resolveRecipientKeys (recipientKaKids : List String) : List (String × PublicKeyAgreement Point) :=
  recipientKaKids.filterMap fun kid => (resolvePublicKeyAgreement decoders doc kid).toOption.map fun pk => (kid, pk)

end

def firstOn (recipient : List (String × PublicKeyAgreement Point)) (curve : Curve) :
    Option (String × PublicKeyAgreement Point) :=
  recipient.find? fun key => curveOf key.2 = curve

/-- The search over the preferred curves, each for one that `offers` lets through. -/
def firstPreferred (offers : Curve → Bool) (recipient : List (String × PublicKeyAgreement Point)) :
    List Curve → Option (AuthcryptMatch Point)
  | [] => none
  | curve :: preference =>
    match if offers curve then firstOn recipient curve else none with
    | some (kid, pk) => some ⟨curve, kid, pk⟩
    | none => firstPreferred offers recipient preference

def dedupPreserveOrder (curves : List Curve) : List Curve :=
  curves.foldl (fun out c => if c ∈ out then out else out ++ [c]) []

section

variable (decoders : KeyDecoders Point) (doc : DidDocument)

def negotiateAuthcrypt (senderCurves : List Curve) (recipientKaKids : List String) (preference : List Curve) :
    Except KeyNegotiationError (AuthcryptMatch Point) :=
  let recipient := resolveRecipientKeys decoders doc recipientKaKids
  match firstPreferred (fun curve => senderCurves.contains curve) recipient preference with
  | some found => .ok found
  | none => .error (.noCommonCurve (dedupPreserveOrder senderCurves)
      (dedupPreserveOrder (recipient.map fun key => curveOf key.2)))

def selectAnoncryptKey (recipientKaKids : List String) (preference : List Curve) :
    Except KeyNegotiationError (String × PublicKeyAgreement Point) :=
  let recipient := resolveRecipientKeys decoders doc recipientKaKids
  match firstPreferred (fun _ => true) recipient preference with
  | some found => .ok (found.recipientKid, found.recipientPub)
  | none => .error (.noUsableRecipientKey recipientKaKids)

/-! ## What is promised -/

/-- The id that a reference stands for: a fragment is relative to the id of the document. -/
def absoluteId (reference : String) : String :=
  if reference.toList.head? = some '#' then doc.id ++ reference else reference

/-- The method that an entry designates. -/
def designated : VerificationRelationship → Option VerificationMethod
  | .verificationMethod vm => some vm
  | .reference id => doc.methodFor doc.keyAgreement (absoluteId doc id)

/-- The usable key of a method, on a supported curve and with valid bytes. -/
def usable (vm : VerificationMethod) : Option (PublicKeyAgreement Point) := (keyOf decoders vm).toOption

/-- What an entry offers: the key of the method that it designates. -/
def offer (entry : VerificationRelationship) : Option (String × PublicKeyAgreement Point) :=
  ((designated doc entry).bind (usable decoders)).map fun pk => (entry.getId, pk)

/-- The keys that the document offers, in its order. -/
def offered : List (String × PublicKeyAgreement Point) := doc.keyAgreement.filterMap (offer decoders doc)

/-- The earliest preferred curve that the sender has and the document offers, and the first key on it. -/
structure IsBest (senderCurves preference : List Curve) (found : AuthcryptMatch Point) : Prop where
  earliest : ∃ before after, preference = before ++ found.curve :: after ∧
    ∀ curve ∈ before, curve ∈ senderCurves → ∀ key ∈ offered decoders doc, curveOf key.2 ≠ curve
  sender : found.curve ∈ senderCurves
  first : (offered decoders doc).find? (fun key => curveOf key.2 = found.curve) =
    some (found.recipientKid, found.recipientPub)

/-- Every entry with a usable key is considered, the best pairing is found where there is one, whatever the order of the
sender's curves, and the key is that of the anonymous selection where the sender has all curves. -/
structure Negotiates (senderCurves preference : List Curve) : Prop where
  considered : ∀ entry ∈ doc.keyAgreement, ∀ key, offer decoders doc entry = some key →
    key ∈ resolveRecipientKeys decoders doc doc.findKeyAgreement
  succeeds : (∃ found, negotiateAuthcrypt decoders doc senderCurves doc.findKeyAgreement preference = .ok found) ↔
    ∃ curve ∈ preference, curve ∈ senderCurves ∧ ∃ key ∈ offered decoders doc, curveOf key.2 = curve
  best : ∀ found, negotiateAuthcrypt decoders doc senderCurves doc.findKeyAgreement preference = .ok found ↔
    IsBest decoders doc senderCurves preference found
  independent : ∀ other : List Curve, (∀ curve, curve ∈ other ↔ curve ∈ senderCurves) → ∀ found,
    negotiateAuthcrypt decoders doc other doc.findKeyAgreement preference = .ok found ↔
      negotiateAuthcrypt decoders doc senderCurves doc.findKeyAgreement preference = .ok found
  anoncrypt : (∀ curve ∈ preference, curve ∈ senderCurves) → ∀ key,
    selectAnoncryptKey decoders doc doc.findKeyAgreement preference = .ok key ↔
      ∃ found, negotiateAuthcrypt decoders doc senderCurves doc.findKeyAgreement preference = .ok found ∧
        key = (found.recipientKid, found.recipientPub)

/-- No entry refers to a usable key by a fragment, and an embedded method with a usable key is the first of its id, or
has the key of the first. -/
structure Referable : Prop where
  relative : ∀ id, .reference id ∈ doc.keyAgreement → id.toList.head? = some '#' →
    ∀ vm, doc.methodFor doc.keyAgreement (doc.id ++ id) = some vm → usable decoders vm = none
  embedded : ∀ vm, .verificationMethod vm ∈ doc.keyAgreement → ∀ pk, usable decoders vm = some pk →
    ∀ first, doc.methodFor doc.keyAgreement vm.id = some first → usable decoders first = some pk

end

section

/-! ## Looking up a method -/

variable {decoders : KeyDecoders Point} {doc : DidDocument} {kid : String} {vm : VerificationMethod}

variable {entry : VerificationRelationship}

theorem embedded_eq_some_iff : entry.embedded kid = some vm ↔ entry = .verificationMethod vm ∧ vm.id = kid := by
  cases entry with
  | reference id => exact iff_of_false (by rintro ⟨⟩) (by rintro ⟨⟨⟩, -⟩)
  | verificationMethod other =>
    show (if other.id = kid then some other else none) = some vm ↔ _
    constructor
    · intro h
      split_ifs at h with hid
      cases h
      exact ⟨rfl, hid⟩
    · rintro ⟨heq, hid⟩
      obtain rfl := VerificationRelationship.verificationMethod.inj heq
      rw [if_pos hid]

theorem methodFor_id (h : doc.methodFor doc.keyAgreement kid = some vm) : vm.id = kid ∧
    (.verificationMethod vm ∈ doc.keyAgreement ∨ vm ∈ doc.verificationMethod) := by
  unfold Document.methodFor at h
  rcases or_eq_some_iff.1 h with h | ⟨-, h⟩
  · obtain ⟨entry, hentry, hembedded⟩ := exists_of_findSome?_eq_some h
    obtain ⟨rfl, hid⟩ := embedded_eq_some_iff.1 hembedded
    exact ⟨hid, .inl hentry⟩
  · unfold Document.getVerificationMethod at h
    have hid : decide (vm.id = kid) = true :=
      find?_some (p := fun vm : VerificationMethod => decide (vm.id = kid)) h
    exact ⟨of_decide_eq_true hid, .inr (mem_of_find?_eq_some h)⟩

theorem methodFor_fragment (h : kid.toList.head? = some '#') : doc.methodFor doc.keyAgreement kid = none := by
  cases hmethod : doc.methodFor doc.keyAgreement kid with
  | none => rfl
  | some vm =>
    obtain ⟨rfl, hmem | hmem⟩ := methodFor_id hmethod
    · exact absurd h (doc.embedded_absolute vm hmem)
    · exact absurd h (doc.method_absolute vm hmem)

/-! ## What is resolved -/

/-- The key that the id of an entry resolves to. -/
def resolved (decoders : KeyDecoders Point) (doc : DidDocument) (entry : VerificationRelationship) :
    Option (String × PublicKeyAgreement Point) :=
  ((doc.methodFor doc.keyAgreement entry.getId).bind (usable decoders)).map fun pk => (entry.getId, pk)

theorem toOption_resolvePublicKeyAgreement : (resolvePublicKeyAgreement decoders doc kid).toOption =
    (doc.methodFor doc.keyAgreement kid).bind (usable decoders) := by
  unfold resolvePublicKeyAgreement
  cases doc.methodFor doc.keyAgreement kid with
  | none => rfl
  | some vm => rfl

theorem resolveRecipientKeys_eq : resolveRecipientKeys decoders doc doc.findKeyAgreement =
    doc.keyAgreement.filterMap (resolved decoders doc) := by
  unfold resolveRecipientKeys Document.findKeyAgreement
  rw [filterMap_map]
  refine filterMap_congr fun entry _ => ?_
  show Option.map _ (resolvePublicKeyAgreement decoders doc entry.getId).toOption = _
  rw [toOption_resolvePublicKeyAgreement]
  rfl

variable {key : String × PublicKeyAgreement Point}

theorem Referable.resolved_eq (h : Referable decoders doc) (hentry : entry ∈ doc.keyAgreement)
    (hoffer : offer decoders doc entry = some key) : resolved decoders doc entry = some key := by
  obtain ⟨pk, hpk, rfl⟩ := map_eq_some_iff.1 hoffer
  obtain ⟨vm, hdesignated, husable⟩ := bind_eq_some_iff.1 hpk
  refine map_eq_some_iff.2 ⟨pk, bind_eq_some_iff.2 ?_, rfl⟩
  cases entry with
  | reference id =>
    have hmethod : doc.methodFor doc.keyAgreement (absoluteId doc id) = some vm := hdesignated
    by_cases hfragment : id.toList.head? = some '#'
    · rw [absoluteId, if_pos hfragment] at hmethod
      rw [h.relative id hentry hfragment vm hmethod] at husable
      cases husable
    · rw [absoluteId, if_neg hfragment] at hmethod
      exact ⟨vm, hmethod, husable⟩
  | verificationMethod other =>
    obtain rfl : other = vm := some.inj hdesignated
    obtain ⟨first, hfirst⟩ : ∃ first, doc.methodFor doc.keyAgreement other.id = some first := by
      unfold Document.methodFor
      cases hsome : doc.keyAgreement.findSome? fun entry => entry.embedded other.id with
      | some first => exact ⟨first, rfl⟩
      | none =>
        have hnone := findSome?_eq_none_iff.1 hsome _ hentry
        rw [embedded_eq_some_iff.2 ⟨rfl, rfl⟩] at hnone
        cases hnone
    exact ⟨first, hfirst, h.embedded other hentry pk husable first hfirst⟩

theorem offered_before {before after : List VerificationRelationship}
    (hentries : doc.keyAgreement = before ++ entry :: after) (hresolved : resolved decoders doc entry = some key)
    (hoffer : offer decoders doc entry = none) : ∃ other ∈ before, offer decoders doc other = some key := by
  obtain ⟨pk, hpk, rfl⟩ := map_eq_some_iff.1 hresolved
  obtain ⟨first, hfirst, husable⟩ := bind_eq_some_iff.1 hpk
  rw [offer, map_eq_none_iff] at hoffer
  cases entry with
  | reference id =>
    by_cases hfragment : id.toList.head? = some '#'
    · have hnone : doc.methodFor doc.keyAgreement id = none := methodFor_fragment hfragment
      rw [show VerificationRelationship.getId (.reference id) = id from rfl, hnone] at hfirst
      cases hfirst
    · have hdesignated : designated doc (.reference id) = some first := by
        rw [designated, absoluteId, if_neg hfragment]
        exact hfirst
      rw [hdesignated, bind_some, husable] at hoffer
      cases hoffer
  | verificationMethod vm =>
    have hunusable : usable decoders vm = none := hoffer
    have hid : doc.methodFor doc.keyAgreement vm.id = some first := hfirst
    have hself : VerificationRelationship.embedded vm.id (.verificationMethod vm) = some vm :=
      embedded_eq_some_iff.2 ⟨rfl, rfl⟩
    unfold Document.methodFor at hid
    rw [hentries, findSome?_append, findSome?_cons, hself] at hid
    cases hbefore : before.findSome? fun entry => entry.embedded vm.id with
    | none =>
      rw [hbefore] at hid
      obtain rfl : vm = first := some.inj hid
      rw [hunusable] at husable
      cases husable
    | some other =>
      rw [hbefore] at hid
      obtain rfl : other = first := some.inj hid
      obtain ⟨entry, hentry, hembedded⟩ := exists_of_findSome?_eq_some hbefore
      obtain ⟨rfl, hsame⟩ := embedded_eq_some_iff.1 hembedded
      refine ⟨_, hentry, map_eq_some_iff.2 ⟨pk, husable, ?_⟩⟩
      exact congrArg (fun id => (id, pk)) hsame

theorem find?_filterMap_congr {α β : Type} {f g : α → Option β} {items : List α} (p : β → Bool)
    (hsub : ∀ a ∈ items, ∀ b, g a = some b → f a = some b)
    (hearly : ∀ before a after b, items = before ++ a :: after → f a = some b → g a = none →
      ∃ other ∈ before, g other = some b) :
    (items.filterMap f).find? p = (items.filterMap g).find? p := by
  induction items using List.reverseRecOn with
  | nil => rfl
  | append_singleton items a ih =>
    have hih := ih (fun other hother => hsub other (mem_append_left _ hother)) fun before other after b heq =>
      hearly before other (after ++ [a]) b (by rw [heq, append_assoc, cons_append])
    rw [filterMap_append, filterMap_append, find?_append, find?_append, hih]
    cases hfound : (items.filterMap g).find? p with
    | some b => rfl
    | none =>
      cases hg : g a with
      | some b =>
        rw [filterMap_cons_some (hsub a (mem_append_right _ mem_cons_self) b hg), filterMap_cons_some hg]
        rfl
      | none =>
        rw [filterMap_cons_none hg]
        cases hf : f a with
        | none => rw [filterMap_cons_none hf]; rfl
        | some b =>
          -- what only the first filter gives was found before, and did not match
          obtain ⟨other, hother, hb⟩ := hearly items a [] b rfl hf hg
          have hmiss := find?_eq_none.1 hfound b (mem_filterMap.2 ⟨other, hother, hb⟩)
          rw [filterMap_cons_some hf, find?_cons_of_neg hmiss]
          rfl

theorem Referable.firstOn_eq (h : Referable decoders doc) (curve : Curve) :
    firstOn (resolveRecipientKeys decoders doc doc.findKeyAgreement) curve =
      firstOn (offered decoders doc) curve := by
  rw [resolveRecipientKeys_eq]
  refine find?_filterMap_congr _ (fun entry hentry key => h.resolved_eq hentry) ?_
  intro before entry after key hentries
  exact offered_before hentries

end

/-! ## The search -/

section

variable {offers : Curve → Bool} {recipient : List (String × PublicKeyAgreement Point)} {preference : List Curve}
  {found : AuthcryptMatch Point}

theorem firstOn_eq_none_iff {curve : Curve} : firstOn recipient curve = none ↔
    ∀ key ∈ recipient, curveOf key.2 ≠ curve := by
  simp only [firstOn, find?_eq_none, decide_eq_true_eq]

theorem firstPreferred_eq_some_iff : firstPreferred offers recipient preference = some found ↔
    ∃ before after, preference = before ++ found.curve :: after ∧
      (∀ curve ∈ before, offers curve = true → firstOn recipient curve = none) ∧ offers found.curve = true ∧
      firstOn recipient found.curve = some (found.recipientKid, found.recipientPub) := by
  induction preference with
  | nil =>
    refine iff_of_false (by rintro ⟨⟩) ?_
    rintro ⟨before, after, hnil, -⟩
    cases before <;> cases hnil
  | cons curve preference ih =>
    unfold firstPreferred
    by_cases hhere : offers curve = true ∧ ∃ key, firstOn recipient curve = some key
    · obtain ⟨hoffers, ⟨kid, pk⟩, hkey⟩ := hhere
      rw [if_pos hoffers, hkey]
      constructor
      · intro h
        cases h
        exact ⟨[], preference, rfl, forall_mem_nil _, hoffers, hkey⟩
      · rintro ⟨before, after, hsplit, hbefore, -, hfirst⟩
        cases before with
        | nil =>
          cases hsplit
          rw [hkey] at hfirst
          obtain ⟨hkid, hpk⟩ := Prod.mk.inj (some.inj hfirst)
          cases found
          cases hkid
          cases hpk
          rfl
        | cons other before =>
          cases hsplit
          rw [hbefore _ mem_cons_self hoffers] at hkey
          cases hkey
    · have hnone : (if offers curve then firstOn recipient curve else none) = none := by
        by_cases hoffers : offers curve = true
        · rw [if_pos hoffers]
          exact eq_none_iff_forall_ne_some.2 fun key hkey => hhere ⟨hoffers, key, hkey⟩
        · rw [if_neg hoffers]
      rw [hnone]
      refine ih.trans ⟨?_, ?_⟩
      · rintro ⟨before, after, rfl, hbefore, hrest⟩
        refine ⟨curve :: before, after, rfl, forall_mem_cons.2 ⟨fun hoffers => ?_, hbefore⟩, hrest⟩
        rwa [if_pos hoffers] at hnone
      · rintro ⟨before, after, hsplit, hbefore, hoffers, hfirst⟩
        cases before with
        | nil =>
          cases hsplit
          exact absurd ⟨hoffers, _, hfirst⟩ hhere
        | cons other before =>
          cases hsplit
          exact ⟨before, after, rfl, (forall_mem_cons.1 hbefore).2, hoffers, hfirst⟩

theorem exists_firstPreferred_iff : (∃ found, firstPreferred offers recipient preference = some found) ↔
    ∃ curve ∈ preference, offers curve = true ∧ ∃ key ∈ recipient, curveOf key.2 = curve := by
  induction preference with
  | nil => exact iff_of_false (by rintro ⟨_, ⟨⟩⟩) (by rintro ⟨_, ⟨⟩, -⟩)
  | cons curve preference ih =>
    have hexists : (∃ key ∈ recipient, curveOf key.2 = curve) ↔ firstOn recipient curve ≠ none := by
      rw [Ne, firstOn_eq_none_iff]
      simp
    unfold firstPreferred
    simp only [exists_mem_cons_iff, hexists]
    by_cases hoffers : offers curve = true
    · rw [if_pos hoffers]
      cases hkey : firstOn recipient curve with
      | some key => exact iff_of_true ⟨_, rfl⟩ (.inl ⟨hoffers, by rintro ⟨⟩⟩)
      | none => simpa [hkey] using ih
    · rw [if_neg hoffers]
      simpa [hoffers] using ih

theorem firstPreferred_congr {offers' : Curve → Bool} {recipient' : List (String × PublicKeyAgreement Point)}
    (hoffers : ∀ curve ∈ preference, offers curve = offers' curve)
    (hfirst : ∀ curve, firstOn recipient curve = firstOn recipient' curve) :
    firstPreferred offers recipient preference = firstPreferred offers' recipient' preference := by
  induction preference with
  | nil => rfl
  | cons curve preference ih =>
    obtain ⟨hcurve, hrest⟩ := forall_mem_cons.1 hoffers
    unfold firstPreferred
    rw [hcurve, hfirst, ih hrest]

end

section

variable {decoders : KeyDecoders Point} {doc : DidDocument} {senderCurves preference : List Curve}
  {kids : List String} {found : AuthcryptMatch Point}

theorem negotiateAuthcrypt_eq_ok_iff : negotiateAuthcrypt decoders doc senderCurves kids preference = .ok found ↔
    firstPreferred (fun curve => senderCurves.contains curve) (resolveRecipientKeys decoders doc kids) preference =
      some found := by
  unfold negotiateAuthcrypt
  dsimp only
  cases firstPreferred (fun curve => senderCurves.contains curve) (resolveRecipientKeys decoders doc kids)
    preference with
  | none => exact iff_of_false (by rintro ⟨⟩) (by rintro ⟨⟩)
  | some other =>
    constructor
    · intro h
      exact congrArg some (Except.ok.inj h)
    · intro h
      exact congrArg Except.ok (some.inj h)

theorem selectAnoncryptKey_eq_ok_iff {key : String × PublicKeyAgreement Point} : selectAnoncryptKey decoders doc
    kids preference = .ok key ↔ ∃ found, firstPreferred (fun _ => true) (resolveRecipientKeys decoders doc kids)
    preference = some found ∧ key = (found.recipientKid, found.recipientPub) := by
  unfold selectAnoncryptKey
  dsimp only
  cases firstPreferred (fun _ => true) (resolveRecipientKeys decoders doc kids) preference with
  | none => exact iff_of_false (by rintro ⟨⟩) (by rintro ⟨_, ⟨⟩, -⟩)
  | some other =>
    constructor
    · intro h
      exact ⟨other, rfl, (Except.ok.inj h).symm⟩
    · rintro ⟨found, hfound, rfl⟩
      cases hfound
      rfl

/-- The negotiation keeps what is promised, for a document, just where its entries are referable. -/
theorem negotiates_iff : Negotiates decoders doc senderCurves preference ↔ Referable decoders doc := by
  constructor
  · intro h
    -- an entry that offers a key is found again under its id
    have hresolved : ∀ entry ∈ doc.keyAgreement, ∀ vm pk, designated doc entry = some vm →
        usable decoders vm = some pk →
        (doc.methodFor doc.keyAgreement entry.getId).bind (usable decoders) = some pk := by
      intro entry hentry vm pk hvm hpk
      have hoffer : offer decoders doc entry = some (entry.getId, pk) :=
        map_eq_some_iff.2 ⟨pk, bind_eq_some_iff.2 ⟨vm, hvm, hpk⟩, rfl⟩
      have hmem := h.considered entry hentry _ hoffer
      rw [resolveRecipientKeys_eq] at hmem
      obtain ⟨other, -, hother⟩ := mem_filterMap.1 hmem
      obtain ⟨key, hkey, hpair⟩ := map_eq_some_iff.1 hother
      obtain ⟨hid, rfl⟩ := Prod.mk.inj hpair
      rwa [hid] at hkey
    constructor
    · intro id hentry hfragment vm hmethod
      refine eq_none_iff_forall_ne_some.2 fun pk hpk => ?_
      have hdesignated : designated doc (.reference id) = some vm := by
        rw [designated, absoluteId, if_pos hfragment]
        exact hmethod
      have hfound := hresolved _ hentry vm pk hdesignated hpk
      rw [show VerificationRelationship.getId (.reference id) = id from rfl, methodFor_fragment hfragment] at hfound
      cases hfound
    · intro vm hentry pk hpk first hfirst
      have hfound := hresolved _ hentry vm pk rfl hpk
      rwa [show VerificationRelationship.getId (.verificationMethod vm) = vm.id from rfl, hfirst] at hfound
  · intro h
    -- what is looked up by id and what is offered come to one list
    have hnegotiate : ∀ curves found, negotiateAuthcrypt decoders doc curves doc.findKeyAgreement preference =
      .ok found ↔
        firstPreferred (fun curve => curves.contains curve) (offered decoders doc) preference = some found := by
      intro curves found
      rw [negotiateAuthcrypt_eq_ok_iff, firstPreferred_congr (fun _ _ => rfl) h.firstOn_eq]
    constructor
    · intro entry hentry key hoffer
      rw [resolveRecipientKeys_eq]
      exact mem_filterMap.2 ⟨entry, hentry, h.resolved_eq hentry hoffer⟩
    · simp only [hnegotiate, exists_firstPreferred_iff, contains_iff_mem]
    · intro found
      rw [hnegotiate, firstPreferred_eq_some_iff]
      simp only [contains_iff_mem, firstOn_eq_none_iff]
      constructor
      · rintro ⟨before, after, hsplit, hbefore, hsender, hfirst⟩
        exact ⟨⟨before, after, hsplit, hbefore⟩, hsender, hfirst⟩
      · rintro ⟨⟨before, after, hsplit, hbefore⟩, hsender, hfirst⟩
        exact ⟨before, after, hsplit, hbefore, hsender, hfirst⟩
    · intro other hsame found
      have hcontains : ∀ curve ∈ preference, other.contains curve = senderCurves.contains curve := by
        intro curve _
        rw [Bool.eq_iff_iff, contains_iff_mem, contains_iff_mem]
        exact hsame curve
      rw [hnegotiate, hnegotiate, firstPreferred_congr hcontains fun _ => rfl]
    · intro hall key
      have hcontains : ∀ curve ∈ preference, true = senderCurves.contains curve := fun curve hcurve =>
        (contains_iff_mem.2 (hall curve hcurve)).symm
      simp only [selectAnoncryptKey_eq_ok_iff, hnegotiate]
      rw [firstPreferred_congr hcontains h.firstOn_eq]

end

/-! ## A reference by its fragment -/

/-- The base point of X25519 as a public key. -/
def basePoint : Bytes := 9 :: List.replicate 31 0

def oneKey : KeyDecoders Unit where
  decodeMultikeyWithCodec key :=
    if key = "z6LScHJqLmLd8zBAmcTY7BuyNvvYBEd44A6K8nVg2DSVCcis" then .ok (0xec, basePoint) else .error "unknown key"
  parseJwk _ := .error "no JWK"
  fromSec1Bytes _ _ := .error "no point"

/-- A document that refers to its own key by a fragment. -/
def fragmentDocument : DidDocument where
  id := "did:web:example"
  keyAgreement := [.reference "#0"]
  authentication := []
  verificationMethod :=
    [⟨"did:web:example#0", .obj [("publicKeyMultibase", .str "z6LScHJqLmLd8zBAmcTY7BuyNvvYBEd44A6K8nVg2DSVCcis")]⟩]
  embedded_absolute := by
    intro vm hmem
    cases mem_singleton.1 hmem
  method_absolute := by
    intro vm hmem
    obtain rfl := mem_singleton.1 hmem
    decide

/-- The key is offered, and neither side of the negotiation sees it. -/
theorem fragmentDocument_refused :
    offered oneKey fragmentDocument = [("#0", .x25519 basePoint)] ∧
    negotiateAuthcrypt oneKey fragmentDocument [.x25519] fragmentDocument.findKeyAgreement [.x25519] =
      .error (.noCommonCurve [.x25519] []) ∧
    selectAnoncryptKey oneKey fragmentDocument fragmentDocument.findKeyAgreement [.x25519] =
      .error (.noUsableRecipientKey ["#0"]) ∧
    ¬Negotiates oneKey fragmentDocument [.x25519] [.x25519] := by
  have hoffered : offered oneKey fragmentDocument = [("#0", .x25519 basePoint)] := by decide +kernel
  have hnone : resolveRecipientKeys oneKey fragmentDocument fragmentDocument.findKeyAgreement = [] := by
    decide +kernel
  have hrefused : negotiateAuthcrypt oneKey fragmentDocument [.x25519] fragmentDocument.findKeyAgreement [.x25519] =
      .error (.noCommonCurve [.x25519] []) := by
    unfold negotiateAuthcrypt
    rw [hnone]
    rfl
  refine ⟨hoffered, hrefused, ?_, fun h => ?_⟩
  · unfold selectAnoncryptKey
    rw [hnone]
    rfl
  · have hmem : ("#0", .x25519 basePoint) ∈ offered oneKey fragmentDocument := by
      rw [hoffered]
      exact mem_singleton.2 rfl
    obtain ⟨found, hfound⟩ :=
      h.succeeds.2 ⟨.x25519, mem_singleton.2 rfl, mem_singleton.2 rfl, _, hmem, rfl⟩
    rw [hrefused] at hfound
    cases hfound

end KeyNegotiation

end AffinidiTdk.Didcomm
