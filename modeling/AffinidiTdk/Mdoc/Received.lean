/-
The digest check of an item against the bytes that were received. The wrapper keeps the received bytes, but the digest
is made over the decoded item, encoded anew: the two agree exactly where encoding the item again gives the received
bytes back.
-/
import AffinidiTdk.Mdoc.Authenticity

namespace AffinidiTdk.Mdoc

open Fallible Tag24

open Cbor (Value)

/-! ## What the check is over -/

/-- The digest check of the item is over the received bytes: for every security object and namespace it succeeds
exactly where the stored digest is the hash of the tag around these bytes. -/
def ChecksReceived (crates : Crates) (item : IssuerSignedItem) (received : Bytes) : Prop :=
  ∀ (mso : MobileSecurityObject) (ns : String), mso.verifyItemDigest crates ns item = .ok true ↔
    ∃ digests tagged digest, mso.valueDigests.get? ns = some digests ∧
      digests.get? item.digestId = some digest ∧ crates.encode (.tag 24 (.bytes received)) = .ok tagged ∧
      computeHash crates mso.digestAlgorithm tagged = .ok digest

/-- The two texts are told apart by some of the three hash functions, unless they are the same. -/
def Crates.Separates (crates : Crates) (x y : Bytes) : Prop :=
  crates.sha256 x = crates.sha256 y → crates.sha384 x = crates.sha384 y → crates.sha512 x = crates.sha512 y → x = y

variable {crates : Crates}

variable {received : Bytes}

theorem Tag24.innerBytes_of_deserialize {T : Type} {decodeInner : Bytes → Except String T} {t : Tag24 T}
    (h : deserialize decodeInner (.tag 24 (.bytes received)) = .ok t) : t.innerBytes = received := by
  rw [deserialize] at h
  obtain ⟨inner, -, h⟩ := bind_eq_ok_iff.1 h
  cases h
  rfl

variable {algorithm : String} {digest : Bytes}

theorem carriedDigest_eq_ok_iff {t : Tag24 IssuerSignedItem} : t.carriedDigest crates algorithm = .ok digest ↔
    ∃ tagged, crates.encode (.tag 24 (.bytes t.innerBytes)) = .ok tagged ∧ computeHash crates algorithm tagged =
    .ok digest := by
  rw [carriedDigest, toTaggedBytes, bind_eq_ok_iff]
  simp only [mapError_eq_ok_iff]

variable {item : IssuerSignedItem}

theorem computeDigest_eq_ok_iff : item.computeDigest crates algorithm = .ok digest ↔ ∃ reencoded tagged,
    crates.encode item.toValue = .ok reencoded ∧ crates.encode (.tag 24 (.bytes reencoded)) = .ok tagged ∧
    computeHash crates algorithm tagged = .ok digest := by
  rw [IssuerSignedItem.computeDigest, bind_eq_ok_iff]
  constructor
  · rintro ⟨t, ht, h⟩
    obtain ⟨tagged, htagged, hdigest⟩ := carriedDigest_eq_ok_iff.1 h
    rw [IssuerSignedItem.toTagged, new, bind_eq_ok_iff] at ht
    obtain ⟨reencoded, hreencoded, ht⟩ := ht
    cases ht
    exact ⟨reencoded, tagged, mapError_eq_ok_iff.1 hreencoded, htagged, hdigest⟩
  · rintro ⟨reencoded, tagged, hreencoded, htagged, hdigest⟩
    refine ⟨⟨item, reencoded⟩, ?_, carriedDigest_eq_ok_iff.2 ⟨tagged, htagged, hdigest⟩⟩
    rw [IssuerSignedItem.toTagged, new, hreencoded]
    rfl

/-- A security object with one digest, under an algorithm. -/
def singleDigest (algorithm : String) (digestId : ℕ) (digest : Bytes) : MobileSecurityObject :=
  ⟨"1.0", algorithm, ⟨[("ns", ⟨[(digestId, digest)], List.pairwise_singleton _ _⟩)], List.pairwise_singleton _ _⟩,
    .map [], "", ⟨"", "", ""⟩⟩

theorem ChecksReceived.computeDigest_eq {tagged : Bytes} (h : ChecksReceived crates item received)
    (htagged : crates.encode (.tag 24 (.bytes received)) = .ok tagged)
    (hdigest : computeHash crates algorithm tagged = .ok digest) :
    item.computeDigest crates algorithm = .ok digest := by
  have hstored : (singleDigest algorithm item.digestId digest).valueDigests.get? "ns" =
      some ⟨[(item.digestId, digest)], List.pairwise_singleton _ _⟩ := OrdMap.get?_eq_some_iff.2 (.head _)
  have hfound : (⟨[(item.digestId, digest)], List.pairwise_singleton _ _⟩ : OrdMap ℕ Bytes).get? item.digestId =
      some digest := OrdMap.get?_eq_some_iff.2 (.head _)
  have hverified := (h (singleDigest algorithm item.digestId digest) "ns").2
    ⟨_, tagged, digest, hstored, hfound, htagged, hdigest⟩
  obtain ⟨digests, stored, hdigests, hget, hcomputed⟩ := verifyDigest_eq_ok_iff.1 hverified
  rw [hstored] at hdigests
  cases hdigests
  rw [hfound] at hget
  cases hget
  exact hcomputed

/-- **The digest check is over the received bytes exactly where encoding the decoded item gives them back.** The
encoder takes every tagged byte string, and what it writes decodes to the same one; the hash functions tell the two
tagged byte strings of this item apart. -/
theorem checksReceived_iff {decodeItem : Bytes → Except String IssuerSignedItem} {received : Bytes}
    {t : Tag24 IssuerSignedItem} (ht : deserialize decodeItem (.tag 24 (.bytes received)) = .ok t)
    (hround : ∀ bytes, ∃ tagged, crates.encode (.tag 24 (.bytes bytes)) = .ok tagged ∧
      crates.decode tagged = .ok (.tag 24 (.bytes bytes)))
    (hseparates : ∀ reencoded x y, crates.encode t.inner.toValue = .ok reencoded →
      crates.encode (.tag 24 (.bytes received)) = .ok x → crates.encode (.tag 24 (.bytes reencoded)) = .ok y →
      crates.Separates x y) :
    ChecksReceived crates t.inner received ↔ crates.encode t.inner.toValue = .ok received := by
  constructor
  · intro h
    obtain ⟨tagged, htagged, hdecode⟩ := hround received
    have hdigest : t.inner.computeDigest crates "SHA-256" = .ok (crates.sha256 tagged) := h.computeDigest_eq htagged rfl
    obtain ⟨reencoded, other, hreencoded, hother, h256⟩ := computeDigest_eq_ok_iff.1 hdigest
    have hsame : ∀ {algorithm : String} {digest : Bytes}, computeHash crates algorithm tagged = .ok digest →
        computeHash crates algorithm other = .ok digest := by
      intro algorithm digest hdigest
      obtain ⟨again, again', hagain, hagain', hcomputed⟩ := computeDigest_eq_ok_iff.1
        (h.computeDigest_eq htagged hdigest)
      rw [hreencoded] at hagain
      cases hagain
      rw [hother] at hagain'
      cases hagain'
      exact hcomputed
    have h384 := @hsame "SHA-384" (crates.sha384 tagged) rfl
    have h512 := @hsame "SHA-512" (crates.sha512 tagged) rfl
    have heq : tagged = other := hseparates reencoded tagged other hreencoded htagged hother
      (Except.ok.inj h256).symm
      (Except.ok.inj h384).symm (Except.ok.inj h512).symm
    -- and one tagged byte string has one content
    obtain ⟨tagged', htagged', hdecode'⟩ := hround reencoded
    rw [hother] at htagged'
    cases htagged'
    rw [← heq, hdecode] at hdecode'
    cases hdecode'
    exact hreencoded
  · intro hreencoded mso ns
    rw [MobileSecurityObject.verifyItemDigest, verifyDigest_eq_ok_iff]
    have hbytes := innerBytes_of_deserialize ht
    rw [computeDigest_of_encode (t := t) (by rw [hbytes]; exact hreencoded)]
    simp only [carriedDigest_eq_ok_iff, hbytes]
    constructor
    · rintro ⟨digests, digest, hdigests, hdigest, tagged, htagged, hhash⟩
      exact ⟨digests, tagged, digest, hdigests, hdigest, htagged, hhash⟩
    · rintro ⟨digests, tagged, digest, hdigests, hdigest, htagged, hhash⟩
      exact ⟨digests, digest, hdigests, hdigest, tagged, htagged, hhash⟩

/-- The item that this library encodes itself is checked over the bytes received. -/
theorem alice_checksReceived : ChecksReceived aliceCrates aliceItem.inner aliceBytes := by
  have ht : deserialize (fun _ => .ok aliceItem.inner) (.tag 24 (.bytes aliceBytes)) = .ok aliceItem := rfl
  refine (checksReceived_iff ht (fun bytes => ⟨_, rfl, rfl⟩) ?_).2 rfl
  rintro reencoded x y hreencoded hx hy - - -
  cases hreencoded
  rw [hx] at hy
  exact Except.ok.inj hy

/-! ## Another issuer's encoding -/

/-- The item `name: Alice` with its digest id, zero, in two bytes. -/
def wideBytes : Bytes :=
  [164, 104, 100, 105, 103, 101, 115, 116, 73, 68, 24, 0, 102, 114, 97, 110, 100, 111, 109, 80, 0, 0, 0, 0, 0, 0,
    0, 0, 0, 0, 0, 0, 0, 0, 0, 0, 113, 101, 108, 101, 109, 101, 110, 116, 73, 100, 101, 110, 116, 105, 102,
    105, 101, 114, 100, 110, 97, 109, 101, 108, 101, 108, 101, 109, 101, 110, 116, 86, 97, 108, 117, 101, 101,
    65, 108, 105, 99, 101]

def wideDigest : Bytes :=
  [174, 97, 49, 95, 40, 35, 33, 219, 250, 29, 114, 226, 47, 217, 130, 22, 226, 237, 133, 243, 132, 87, 141, 138,
    170, 182, 47, 113, 80, 100, 119, 224]

/-- The encoder and the hash on both encodings of the item. -/
def wideCrates : Crates :=
  { aliceCrates with sha256 := fun bytes => if bytes.drop 4 = wideBytes then wideDigest else aliceDigest }

/-- The issuer's digest is that of the bytes that were received, and the check says that it is not. -/
theorem wide_refused :
    deserialize (fun _ => .ok aliceItem.inner) (.tag 24 (.bytes wideBytes)) =
      .ok ⟨aliceItem.inner, wideBytes⟩ ∧
      (⟨aliceItem.inner, wideBytes⟩ : Tag24 IssuerSignedItem).carriedDigest wideCrates "SHA-256" = .ok wideDigest ∧
      (singleDigest "SHA-256" 0 wideDigest).verifyItemDigest wideCrates "ns" aliceItem.inner = .ok false ∧
      ¬ChecksReceived wideCrates aliceItem.inner wideBytes := by
  have hrefused : (singleDigest "SHA-256" 0 wideDigest).verifyItemDigest wideCrates "ns" aliceItem.inner =
      .ok false := by rfl
  refine ⟨rfl, by rfl, hrefused, fun h => ?_⟩
  have hverified := (h (singleDigest "SHA-256" 0 wideDigest) "ns").2
    ⟨_, _, wideDigest, OrdMap.get?_eq_some_iff.2 (.head _), OrdMap.get?_eq_some_iff.2 (.head _), rfl, by rfl⟩
  rw [hrefused] at hverified
  cases hverified

end AffinidiTdk.Mdoc
