/-
What a builder issues is exact: the ids of a namespace differ, decoys included, the digests and the signature verify,
and a response discloses the requested items in the order of their issuance.
-/
import AffinidiTdk.Mdoc.Issuance
import Mathlib.Data.List.Induction

namespace AffinidiTdk.Mdoc

open List OrdMap IssuerSignedItem DeviceResponse MdocBuilder
open Cbor (Value)
open Fallible

/-! ## The items of a namespace -/

/-- The item that a call makes as the `i`-th one of its namespace. -/
def Attribute.item (i : ℕ) (attr : Attribute) : IssuerSignedItem :=
  ⟨i % 2 ^ 32, attr.random, attr.identifier, attr.value⟩

/-- The items that the calls make in a namespace. -/
def issuedItems (attrs : List Attribute) (ns : String) : List IssuerSignedItem :=
  (attrs.filter fun attr => attr.ns = ns).mapIdx Attribute.item

theorem issuedItems_append (attrs : List Attribute) (attr : Attribute) (ns : String) :
    issuedItems (attrs ++ [attr]) ns = if attr.ns = ns then issuedItems attrs ns ++
    [attr.item (issuedItems attrs ns).length] else issuedItems attrs ns := by
  unfold issuedItems
  rw [filter_append]
  split_ifs with h
  · rw [filter_cons_of_pos (by simpa using h), filter_nil, mapIdx_append]
    simp
  · rw [filter_cons_of_neg (by simpa using h), filter_nil, append_nil]

/-- After the calls a namespace holds the items they made in it, and one without items is not there. -/
theorem namespaces_foldl (builder : MdocBuilder) (hempty : builder.namespaces = .empty) (attrs : List Attribute)
    (ns : String) :
    (attrs.foldl addAttribute builder).namespaces.get? ns =
      if issuedItems attrs ns = [] then none else some (issuedItems attrs ns) := by
  induction attrs using reverseRecOn with
  | nil =>
    rw [foldl_nil, hempty]
    rfl
  | append_singleton attrs attr ih =>
    rw [foldl_append, foldl_cons, foldl_nil, addAttribute, issuedItems_append]
    dsimp only
    rw [get?_insert]
    by_cases hns : ns = attr.ns
    · subst hns
      have hitems : ((attrs.foldl addAttribute builder).namespaces.get? attr.ns).getD [] =
          issuedItems attrs attr.ns := by
        rw [ih]
        split_ifs with h
        · exact h.symm
        · rfl
      rw [if_pos rfl, if_pos rfl, hitems]
      simp [Attribute.item]
    · rw [if_neg hns, if_neg (Ne.symm hns), ih]

theorem frame_foldl (builder : MdocBuilder) (attrs : List Attribute) :
    let issuing := attrs.foldl addAttribute builder
    issuing.docType = builder.docType ∧ issuing.digestAlgorithm = builder.digestAlgorithm ∧
      issuing.deviceKey = builder.deviceKey ∧ issuing.validity = builder.validity ∧
      issuing.decoysPerNamespace = builder.decoysPerNamespace := by
  induction attrs generalizing builder with
  | nil => exact ⟨rfl, rfl, rfl, rfl, rfl⟩
  | cons attr attrs ih => exact ih (builder.addAttribute attr)

/-! ## Ids -/

theorem map_digestId_issuedItems {attrs : List Attribute} {ns : String}
    (h : (issuedItems attrs ns).length ≤ 2 ^ 32) :
    (issuedItems attrs ns).map digestId = range (issuedItems attrs ns).length := by
  refine ext_getElem (by simp) fun i hi _ => ?_
  rw [length_map] at hi
  have hlt : i < 2 ^ 32 := by omega
  rw [getElem_map, getElem_range]
  unfold issuedItems
  rw [getElem_mapIdx]
  exact Nat.mod_eq_of_lt hlt

theorem foldl_max_range (n : ℕ) : (range n).foldl max 0 = n - 1 := by
  induction n with
  | zero => rfl
  | succ n ih =>
    rw [range_succ, foldl_append, foldl_cons, foldl_nil, ih]
    omega

variable {items : List IssuerSignedItem}

theorem decoyId_eq (hne : items ≠ []) (hids : items.map digestId = range items.length)
    {i : ℕ} (h : items.length + i < 2 ^ 32) : decoyId items i = items.length + i := by
  have hpos : 0 < items.length := length_pos_iff.2 hne
  rw [decoyId, maxDigestId, hids, foldl_max_range, Nat.mod_eq_of_lt (a := i) (by omega)]
  rw [Nat.mod_eq_of_lt (by omega)]
  omega

variable {decoys : ℕ}

theorem ids_nodup (hne : items ≠ []) (hids : items.map digestId = range items.length)
    (h : items.length + decoys < 2 ^ 32) :
    (items.map digestId ++ (range decoys).map (decoyId items)).Nodup := by
  have hdecoys : (range decoys).map (decoyId items) = (range decoys).map (items.length + ·) := by
    refine map_congr_left fun i hi => decoyId_eq hne hids ?_
    have := mem_range.1 hi
    omega
  rw [hids, hdecoys, ← range_add]
  exact nodup_range

/-! ## What issuing relies on -/

/-- The encoder takes every value, and a tagged byte string that it wrote decodes to itself; what is signed does not
depend on the signature; and the verifier accepts what the signer signs. -/
structure IssuerLaws (crates : Crates) (signer : CoseSigner) (verifier : CoseVerifier) : Prop where
  encode : ∀ value, ∃ bytes, crates.encode value = .ok bytes
  decode : ∀ bytes tagged, crates.encode (.tag 24 (.bytes bytes)) = .ok tagged →
    crates.decode tagged = .ok (.tag 24 (.bytes bytes))
  tbsData : ∀ (sign1 : CoseSign1) signature aad, crates.tbsData { sign1 with signature } aad =
    crates.tbsData sign1 aad
  sign : ∀ data, ∃ signature, signer.sign data = .ok signature ∧ verifier data signature = .ok true

def Supported (digestAlgorithm : String) : Prop := digestAlgorithm ∈ ["SHA-256", "SHA-384", "SHA-512"]

variable {crates : Crates} {signer : CoseSigner} {verifier : CoseVerifier}

variable {digestAlgorithm : String}

theorem exists_computeHash (h : Supported digestAlgorithm) (data : Bytes) :
    ∃ digest, computeHash crates digestAlgorithm data = .ok digest := by
  simp only [Supported, mem_cons, not_mem_nil, or_false] at h
  rcases h with rfl | rfl | rfl <;> exact ⟨_, rfl⟩

theorem exists_new {T : Type} (laws : IssuerLaws crates signer verifier) (toValue : T → Value) (inner : T) :
    ∃ bytes, crates.encode (toValue inner) = .ok bytes ∧ Tag24.new crates toValue inner = .ok ⟨inner, bytes⟩ := by
  obtain ⟨bytes, hbytes⟩ := laws.encode (toValue inner)
  refine ⟨bytes, hbytes, ?_⟩
  rw [Tag24.new, hbytes]
  rfl

theorem exists_toTaggedBytes {T : Type} (laws : IssuerLaws crates signer verifier) (tagged : Tag24 T) :
    ∃ bytes, tagged.toTaggedBytes crates = .ok bytes ∧ crates.decode bytes =
      .ok (.tag 24 (.bytes tagged.innerBytes)) := by
  obtain ⟨bytes, hbytes⟩ := laws.encode (.tag 24 (.bytes tagged.innerBytes))
  refine ⟨bytes, ?_, laws.decode _ _ hbytes⟩
  rw [Tag24.toTaggedBytes, hbytes]
  rfl

theorem exists_computeDigest (laws : IssuerLaws crates signer verifier) (h : Supported digestAlgorithm)
    (item : IssuerSignedItem) : ∃ digest, item.computeDigest crates digestAlgorithm = .ok digest := by
  obtain ⟨bytes, -, htagged⟩ := exists_new laws toValue item
  obtain ⟨taggedBytes, hbytes, -⟩ := exists_toTaggedBytes laws ⟨item, bytes⟩
  obtain ⟨digest, hdigest⟩ := @exists_computeHash crates digestAlgorithm h taggedBytes
  exact ⟨digest, bind_eq_ok_iff.2 ⟨_, htagged, bind_eq_ok_iff.2 ⟨taggedBytes, hbytes, hdigest⟩⟩⟩

/-! ## The security object -/

/-- The digests of a namespace hold that of each item under its id: no decoy has overwritten one. -/
theorem namespaceDigests_spec (laws : IssuerLaws crates signer verifier) (hsupported : Supported digestAlgorithm)
    (randomData : String → ℕ → Bytes) {ns : String}
    (hnodup : (items.map digestId ++ (range decoys).map (decoyId items)).Nodup) :
    (∃ digests, namespaceDigests crates digestAlgorithm decoys randomData (ns, items) = .ok digests) ∧ ∀ digests,
    namespaceDigests crates digestAlgorithm decoys randomData (ns, items) = .ok digests → ∀ item ∈ items, ∃ digest,
    item.computeDigest crates digestAlgorithm = .ok digest ∧ digests.get? item.digestId = some digest := by
  obtain ⟨hitems, hdecoys, hdisjoint⟩ := nodup_append.1 hnodup
  constructor
  · obtain ⟨digests, hdigests⟩ : ∃ digests, OrdMap.insertEach digestId
        (fun item => item.computeDigest crates digestAlgorithm) items .empty = .ok digests :=
      exists_insertEach (fun item _ => exists_computeDigest laws hsupported item) .empty
    obtain ⟨all, hall⟩ : ∃ all, OrdMap.insertEach (decoyId items)
        (fun i => computeHash crates digestAlgorithm (randomData ns i)) (range decoys) digests = .ok all :=
      exists_insertEach (fun i _ => exists_computeHash hsupported _) digests
    exact ⟨all, bind_eq_ok_iff.2 ⟨digests, hdigests, hall⟩⟩
  · intro all hall item hitem
    obtain ⟨digests, hdigests, hall⟩ := bind_eq_ok_iff.1 hall
    obtain ⟨digest, hdigest, hget⟩ := (get?_insertEach hitems hdigests).1 item hitem
    refine ⟨digest, hdigest, ?_⟩
    rw [(get?_insertEach hdecoys hall).2 item.digestId ?_, hget]
    intro hdecoy
    exact hdisjoint _ (mem_map_of_mem hitem) _ hdecoy rfl

theorem create_spec (laws : IssuerLaws crates signer verifier) (hsupported : Supported digestAlgorithm)
    (randomData : String → ℕ → Bytes) {namespaces : OrdMap String (List IssuerSignedItem)} (docType : String)
    (deviceKey : Value) (validity : ValidityInfo)
    (hnodup : ∀ ns items, namespaces.get? ns = some items →
    (items.map digestId ++ (range decoys).map (decoyId items)).Nodup) : ∃ mso,
    MobileSecurityObject.create crates docType digestAlgorithm namespaces deviceKey validity decoys randomData =
    .ok mso ∧ ∀ ns items, namespaces.get? ns = some items → ∀ item ∈ items, mso.verifyItemDigest crates ns item =
    .ok true := by
  have hentry : ∀ entry ∈ namespaces.entries,
      (entry.2.map digestId ++ (range decoys).map (decoyId entry.2)).Nodup :=
    fun entry h => hnodup entry.1 entry.2 (get?_eq_some_iff.2 h)
  obtain ⟨valueDigests, hdigests⟩ : ∃ valueDigests, OrdMap.insertEach Prod.fst
      (namespaceDigests crates digestAlgorithm decoys randomData) namespaces.entries .empty = .ok valueDigests :=
    exists_insertEach
      (fun entry h => (namespaceDigests_spec laws hsupported randomData (hentry entry h)).1) .empty
  refine ⟨_, bind_eq_ok_iff.2 ⟨valueDigests, hdigests, rfl⟩, fun ns items hns item hitem => ?_⟩
  have hmem := get?_eq_some_iff.1 hns
  obtain ⟨digests, hcomputed, hget⟩ := (get?_insertEach namespaces.keys_nodup hdigests).1 _ hmem
  obtain ⟨digest, hdigest, hstored⟩ := (namespaceDigests_spec laws hsupported randomData
    (hentry _ hmem)).2 digests hcomputed item hitem
  exact verifyDigest_eq_ok_iff.2 ⟨digests, digest, hget, hstored, hdigest⟩

/-! ## The signature -/

theorem signMso_spec (laws : IssuerLaws crates signer verifier) (protectedHeader : ℤ → Bytes)
    {mso : MobileSecurityObject}
    (hmso : ∀ bytes, crates.encode mso.toValue = .ok bytes → crates.decodeMso bytes = .ok mso) :
    ∃ sign1, signMso crates protectedHeader mso signer = .ok sign1 ∧
      verifyIssuerAuth crates sign1 verifier = .ok mso := by
  obtain ⟨inner, hinner, htagged⟩ := exists_new laws MobileSecurityObject.toValue mso
  obtain ⟨msoBytes, hbytes, hdecode⟩ := exists_toTaggedBytes laws (⟨mso, inner⟩ : Tag24 MobileSecurityObject)
  let unsigned : CoseSign1 := ⟨protectedHeader signer.algorithm, signer.unprotectedHeader, some msoBytes, []⟩
  obtain ⟨signature, hsign, hverify⟩ := laws.sign (crates.tbsData unsigned [])
  have hsigned : signMso crates protectedHeader mso signer = .ok { unsigned with signature } := by
    refine bind_eq_ok_iff.2 ⟨_, htagged, bind_eq_ok_iff.2 ⟨msoBytes, hbytes, ?_⟩⟩
    exact bind_eq_ok_iff.2 ⟨signature, mapError_eq_ok_iff.2 hsign, rfl⟩
  refine ⟨_, hsigned, ?_⟩
  have haccept : verifier.accept signature (crates.tbsData { unsigned with signature } []) = .ok () := by
    rw [laws.tbsData]
    exact bind_eq_ok_iff.2 ⟨true, hverify, rfl⟩
  have hinnerTagged : Tag24.deserialize crates.decodeMso (.tag 24 (.bytes inner)) = .ok ⟨mso, inner⟩ :=
    bind_eq_ok_iff.2 ⟨mso, mapError_eq_ok_iff.2 (hmso inner hinner), rfl⟩
  refine unit_bind_eq_ok_iff.2 ⟨mapError_eq_ok_iff.2 haccept, ?_⟩
  refine bind_eq_ok_iff.2 ⟨msoBytes, elim_throw_eq_ok_iff.2 rfl, ?_⟩
  refine bind_eq_ok_iff.2 ⟨_, mapError_eq_ok_iff.2 hdecode, ?_⟩
  exact bind_eq_ok_iff.2 ⟨_, mapError_eq_ok_iff.2 hinnerTagged, rfl⟩

/-! ## The tagged items -/

theorem exists_mapM_toTagged (laws : IssuerLaws crates signer verifier) (items : List IssuerSignedItem) :
    ∃ tagged, items.mapM (fun item => item.toTagged crates) = .ok tagged := by
  induction items with
  | nil => exact ⟨[], rfl⟩
  | cons item items ih =>
    obtain ⟨bytes, -, htagged⟩ := exists_new laws toValue item
    obtain ⟨tagged, hrest⟩ := ih
    rw [mapM_cons]
    exact ⟨_, bind_eq_ok_iff.2 ⟨_, htagged, bind_eq_ok_iff.2 ⟨tagged, hrest, rfl⟩⟩⟩

theorem map_inner_of_mapM {tagged : List (Tag24 IssuerSignedItem)}
    (h : items.mapM (fun item => item.toTagged crates) = .ok tagged) : tagged.map Tag24.inner = items := by
  induction items generalizing tagged with
  | nil =>
    cases h
    rfl
  | cons item items ih =>
    rw [mapM_cons] at h
    obtain ⟨t, ht, h⟩ := bind_eq_ok_iff.1 h
    obtain ⟨rest, hrest, h⟩ := bind_eq_ok_iff.1 h
    cases h
    rw [toTagged, Tag24.new] at ht
    obtain ⟨bytes, -, ht⟩ := bind_eq_ok_iff.1 ht
    cases ht
    rw [map_cons, ih hrest]

theorem taggedNamespaces_spec (laws : IssuerLaws crates signer verifier)
    (namespaces : OrdMap String (List IssuerSignedItem)) : ∃ tagged, OrdMap.insertEach Prod.fst
    (fun entry : String × List IssuerSignedItem => entry.2.mapM fun item => item.toTagged crates)
    namespaces.entries .empty = .ok tagged ∧ ∀ ns, ((tagged.get? ns).getD []).map Tag24.inner =
    (namespaces.get? ns).getD [] := by
  obtain ⟨tagged, htagged⟩ : ∃ tagged, OrdMap.insertEach Prod.fst
      (fun entry : String × List IssuerSignedItem => entry.2.mapM fun item => item.toTagged crates)
      namespaces.entries .empty = .ok tagged :=
    exists_insertEach (fun entry _ => exists_mapM_toTagged laws entry.2) .empty
  obtain ⟨hmem, hother⟩ := get?_insertEach namespaces.keys_nodup htagged
  refine ⟨tagged, htagged, fun ns => ?_⟩
  cases hns : namespaces.get? ns with
  | none =>
    have hkey : ns ∉ namespaces.keys := by
      rw [OrdMap.mem_keys]
      rintro ⟨items, hitems⟩
      rw [get?_eq_some_iff.2 hitems] at hns
      cases hns
    rw [hother ns hkey]
    rfl
  | some items =>
    obtain ⟨t, ht, hget⟩ := hmem (ns, items) (get?_eq_some_iff.1 hns)
    rw [hget]
    exact map_inner_of_mapM ht

/-! ## A response -/

theorem get?_select (signed : IssuerSigned) (disclosed : IssuerNameSpaces) (request : String × List String)
    (ns : String) : ((select signed disclosed request).get? ns).getD [] = if ns = request.1 ∧
    ((signed.namespaces.get? ns).getD []).filter (fun t => t.inner.elementIdentifier ∈ request.2) ≠
    [] then ((signed.namespaces.get? ns).getD []).filter fun t => t.inner.elementIdentifier ∈
    request.2 else (disclosed.get? ns).getD [] := by
  unfold select
  by_cases hns : ns = request.1
  · subst hns
    cases hitems : signed.namespaces.get? request.1 with
    | none => simp
    | some items =>
      dsimp only
      by_cases hselected : (items.filter fun t => t.inner.elementIdentifier ∈ request.2) = []
      · rw [if_pos hselected, if_neg (by simpa using hselected)]
      · rw [if_neg hselected, if_pos ⟨rfl, hselected⟩, get?_insert, if_pos rfl]
        rfl
  · rw [if_neg (fun h => hns h.1)]
    cases hitems : signed.namespaces.get? request.1 with
    | none => rfl
    | some items =>
      dsimp only
      split_ifs
      · rfl
      · rw [get?_insert, if_neg hns]

theorem disclosed_create (signed : IssuerSigned) (requested : OrdMap String (List String)) (ns : String) :
    ((create signed requested).disclosed.get? ns).getD [] =
      ((signed.namespaces.get? ns).getD []).filter
        fun t => t.inner.elementIdentifier ∈ (requested.get? ns).getD [] := by
  have hloop : ∀ (requests : List (String × List String)), (requests.map Prod.fst).Nodup →
      ∀ disclosed : IssuerNameSpaces,
      (∀ ids, (ns, ids) ∈ requests → disclosed.get? ns = none →
        ((requests.foldl (select signed) disclosed).get? ns).getD [] =
          ((signed.namespaces.get? ns).getD []).filter fun t => t.inner.elementIdentifier ∈ ids) ∧
      (ns ∉ requests.map Prod.fst → ((requests.foldl (select signed) disclosed).get? ns).getD [] =
        (disclosed.get? ns).getD []) := by
    intro requests
    induction requests with
    | nil => exact fun _ disclosed => ⟨fun _ h => absurd h not_mem_nil, fun _ => rfl⟩
    | cons request requests ih =>
      intro hnodup disclosed
      rw [map_cons, nodup_cons] at hnodup
      obtain ⟨hmem, hother⟩ := ih hnodup.2 (select signed disclosed request)
      constructor
      · intro ids hids hnone
        rcases mem_cons.1 hids with rfl | hids
        · rw [foldl_cons, hother hnodup.1, get?_select, hnone]
          split_ifs with h
          · rfl
          · simpa using h
        · have hne : ns ≠ request.1 := fun heq => hnodup.1 (heq ▸ mem_map_of_mem hids)
          refine hmem ids hids ?_
          unfold select
          split
          · dsimp only
            split_ifs
            · exact hnone
            · rw [get?_insert, if_neg hne, hnone]
          · exact hnone
      · intro hns
        rw [map_cons, mem_cons, not_or] at hns
        rw [foldl_cons, hother hns.2, get?_select, if_neg (fun h => hns.1 h.1)]
  obtain ⟨hmem, hother⟩ := hloop requested.entries requested.keys_nodup .empty
  cases hns : requested.get? ns with
  | none =>
    have hkey : ns ∉ requested.keys := by
      rw [OrdMap.mem_keys]
      rintro ⟨ids, hids⟩
      rw [get?_eq_some_iff.2 hids] at hns
      cases hns
    rw [create, hother hkey]
    simp [OrdMap.empty, OrdMap.get?]
  | some ids => exact hmem ids (get?_eq_some_iff.1 hns) rfl

/-! ## Issuing and disclosing -/

/-- **Issuance and disclosure are exact.** From a builder without items, whatever attributes are added: the document
is issued with these items, in each namespace the ids of items and decoys differ, all digests and the signature
verify, and a response discloses exactly the requested items, in the order of their issuance, and verifies too. The
security object that is created decodes from its encoding. -/
theorem issuance_exact (laws : IssuerLaws crates signer verifier) (builder : MdocBuilder)
    (hempty : builder.namespaces = .empty) (hsupported : Supported builder.digestAlgorithm) (attrs : List Attribute)
    (hbound : ∀ ns, issuedItems attrs ns ≠ [] → (issuedItems attrs ns).length + builder.decoysPerNamespace < 2 ^ 32)
    (randomData : String → ℕ → Bytes) (protectedHeader : ℤ → Bytes)
    (hmso : ∀ mso bytes, MobileSecurityObject.create crates builder.docType builder.digestAlgorithm
      (attrs.foldl addAttribute builder).namespaces builder.deviceKey builder.validity
      builder.decoysPerNamespace randomData = .ok mso → crates.encode mso.toValue = .ok bytes →
      crates.decodeMso bytes = .ok mso) :
    ∃ signed, (attrs.foldl addAttribute builder).build crates protectedHeader signer randomData =
        .ok signed ∧
      (∀ ns, ((signed.namespaces.get? ns).getD []).map Tag24.inner = issuedItems attrs ns) ∧
      (∀ ns, issuedItems attrs ns ≠ [] → ((issuedItems attrs ns).map digestId ++
        (range builder.decoysPerNamespace).map (decoyId (issuedItems attrs ns))).Nodup) ∧
      signed.verifyDigests crates = .ok true ∧ signed.verifyIssuerAuth crates verifier = .ok signed.mso ∧
      ∀ requested : OrdMap String (List String),
        (∀ ns, (((create signed requested).disclosed.get? ns).getD []).map Tag24.inner =
          (issuedItems attrs ns).filter fun item => item.elementIdentifier ∈ (requested.get? ns).getD []) ∧
        (create signed requested).verifyDigests crates = .ok true := by
  obtain ⟨hdocType, halgorithm, hkey, hvalidity, hdecoys⟩ := frame_foldl builder attrs
  have hget := namespaces_foldl builder hempty attrs
  generalize attrs.foldl addAttribute builder = issuing at *
  have hnodup : ∀ ns, issuedItems attrs ns ≠ [] → ((issuedItems attrs ns).map digestId ++
      (range builder.decoysPerNamespace).map (decoyId (issuedItems attrs ns))).Nodup := by
    intro ns hne
    have := hbound ns hne
    exact ids_nodup hne (map_digestId_issuedItems (by omega)) this
  have hitems : ∀ ns items, issuing.namespaces.get? ns = some items → items = issuedItems attrs ns ∧ items ≠ [] := by
    intro ns items hns
    rw [hget] at hns
    split_ifs at hns with hnil
    cases hns
    exact ⟨rfl, hnil⟩
  obtain ⟨mso, hcreate, hverify⟩ := create_spec laws hsupported randomData builder.docType builder.deviceKey
    builder.validity fun ns items hns => by
      obtain ⟨rfl, hne⟩ := hitems ns items hns
      exact hnodup ns hne
  obtain ⟨issuerAuth, hsign, hauth⟩ := signMso_spec laws protectedHeader fun bytes => hmso mso bytes hcreate
  obtain ⟨tagged, htagged, hinner⟩ := taggedNamespaces_spec laws issuing.namespaces
  have hissued : ∀ ns, ((tagged.get? ns).getD []).map Tag24.inner = issuedItems attrs ns := by
    intro ns
    rw [hinner, hget]
    split_ifs with hnil
    · exact hnil.symm
    · rfl
  -- every item that is tagged verifies, and so does every part of them
  have hall : ∀ (spaces : IssuerNameSpaces), (∀ ns, ∀ t ∈ (spaces.get? ns).getD [], t ∈ (tagged.get? ns).getD []) →
      verifyNamespaces crates mso spaces.entries = .ok true := by
    intro spaces hsub
    refine verifyNamespaces_eq_ok_iff.2 fun entry hentry t ht => ?_
    have hmem := hsub entry.1 t (by rw [get?_eq_some_iff.2 hentry]; exact ht)
    have hitem : t.inner ∈ issuedItems attrs entry.1 := hissued entry.1 ▸ mem_map_of_mem hmem
    refine hverify entry.1 _ ?_ t.inner hitem
    rw [hget, if_neg (ne_nil_of_mem hitem)]
  refine ⟨⟨mso, tagged, issuerAuth, issuing.docType⟩, ?_, hissued, hnodup, hall tagged fun _ _ ht => ht, hauth,
    fun requested => ⟨fun ns => ?_, hall _ fun ns t ht => ?_⟩⟩
  · rw [build, hdocType, halgorithm, hkey, hvalidity, hdecoys]
    exact bind_eq_ok_iff.2
      ⟨mso, hcreate, bind_eq_ok_iff.2 ⟨issuerAuth, hsign, bind_eq_ok_iff.2 ⟨tagged, htagged, rfl⟩⟩⟩
  · rw [disclosed_create, ← hissued ns, filter_map]
    rfl
  · rw [disclosed_create] at ht
    exact (mem_filter.1 ht).1

/-! ### Two namespaces -/

def cborHead (major n : ℕ) : Bytes :=
  if n < 24 then [.ofNat (32 * major + n)]
  else if n < 256 then [.ofNat (32 * major + 24), .ofNat n]
  else [.ofNat (32 * major + 25), .ofNat (n / 256), .ofNat n]

/-- The encoding of a value of this depth, without floats and with short lengths. -/
def encodeValue : ℕ → Value → Bytes
  | 0, _ => []
  | depth + 1, value =>
    match value with
    | .integer i => if 0 ≤ i then cborHead 0 i.toNat else cborHead 1 (-1 - i).toNat
    | .bytes b => cborHead 2 b.length ++ b
    | .text s => cborHead 3 s.utf8ByteSize ++ s.toUTF8.toList
    | .array items => cborHead 4 items.length ++ items.flatMap (encodeValue depth)
    | .map entries => cborHead 5 entries.length ++ entries.flatMap fun entry =>
        encodeValue depth entry.1 ++ encodeValue depth entry.2
    | .tag tag inner => cborHead 6 tag ++ encodeValue depth inner
    | .bool b => [if b then 245 else 244]
    | _ => [246]

/-- The bytes after a tag of two bytes and the head of a byte string. -/
def taggedContent (tagged : Bytes) : Bytes :=
  match tagged.drop 2 with
  | head :: content => if head = 88 then content.drop 1 else if head = 89 then content.drop 2 else content
  | [] => []

def pidBuilder : MdocBuilder where
  docType := "pid"
  digestAlgorithm := "SHA-256"
  deviceKey := .map []
  validity := ⟨"", "", ""⟩
  decoysPerNamespace := 1

def nameAlice : Attribute := ⟨"ns", "name", .text "Alice", List.replicate 16 0⟩

def cityBern : Attribute := ⟨"other", "city", .text "Bern", List.replicate 16 1⟩

def ageThirty : Attribute := ⟨"ns", "age", .integer 30, List.replicate 16 2⟩

def pidAttributes : List Attribute := [nameAlice, cityBern, ageThirty]

/-- A hash without collisions, and no decoder of security objects. -/
def encodingCrates : Crates :=
  { aliceCrates with
    encode := fun value => .ok (encodeValue 8 value)
    decode := fun bytes => .ok (.tag 24 (.bytes (taggedContent bytes)))
    sha256 := id }

def createdMso : Except MdocError MobileSecurityObject :=
  MobileSecurityObject.create encodingCrates "pid" "SHA-256"
    (pidAttributes.foldl MdocBuilder.addAttribute pidBuilder).namespaces (.map []) ⟨"", "", ""⟩ 1 fun _ _ => List.replicate 32 7

def issuingCrates : Crates :=
  { encodingCrates with
    decodeMso := fun bytes =>
      match createdMso with
      | .ok mso => if bytes = encodeValue 8 mso.toValue then .ok mso else .error "unexpected bytes"
      | .error _ => .error "no security object" }

def pidSigner : CoseSigner where
  algorithm := -7
  sign _ := .ok [1]

def pidSignatures : CoseVerifier := fun _ signature => .ok (signature = [1])

theorem taggedContent_encodeValue (content : Bytes) :
    taggedContent (encodeValue 8 (.tag 24 (.bytes content))) = content := by
  show taggedContent ([216, 24] ++ (cborHead 2 content.length ++ content)) = content
  unfold taggedContent cborHead
  split_ifs with hshort
  · -- the length is in the head itself
    have hhead : (UInt8.ofNat (32 * 2 + content.length)).toNat = 64 + content.length := by
      rw [UInt8.toNat_ofNat', Nat.mod_eq_of_lt (by omega)]
    have hne : UInt8.ofNat (32 * 2 + content.length) ≠ 88 ∧ UInt8.ofNat (32 * 2 + content.length) ≠ 89 := by
      constructor <;> intro heq <;> rw [heq] at hhead
      · exact absurd hhead (by show ¬88 = _; omega)
      · exact absurd hhead (by show ¬89 = _; omega)
    show (if _ then _ else if _ then _ else content) = content
    rw [if_neg hne.1, if_neg hne.2]
  · rfl
  · rfl

theorem pidSigner_laws : IssuerLaws issuingCrates pidSigner pidSignatures where
  encode _ := ⟨_, rfl⟩
  decode bytes tagged h := by
    cases h
    show Except.ok (Value.tag 24 (.bytes (taggedContent _))) = _
    rw [taggedContent_encodeValue]
  tbsData _ _ _ := rfl
  sign _ := ⟨[1], rfl, rfl⟩

/-- Three attributes are issued in two namespaces with a decoy each; age and city are asked for, the name is not
disclosed. -/
theorem issuance_exact_pid : ∃ signed,
    (pidAttributes.foldl addAttribute pidBuilder).build issuingCrates (fun _ => []) pidSigner
      (fun _ _ => replicate 32 7) = .ok signed ∧
    let response := create signed ⟨[("ns", ["age"]), ("other", ["city"])], by decide⟩
    ((response.disclosed.get? "ns").getD []).map Tag24.inner = [ageThirty.item 1] ∧
      ((response.disclosed.get? "other").getD []).map Tag24.inner = [cityBern.item 0] := by
  have hmso : ∀ mso bytes, MobileSecurityObject.create issuingCrates "pid" "SHA-256"
      (pidAttributes.foldl addAttribute pidBuilder).namespaces (.map []) ⟨"", "", ""⟩ 1
      (fun _ _ => replicate 32 7) = .ok mso →
      issuingCrates.encode mso.toValue = .ok bytes → issuingCrates.decodeMso bytes = .ok mso := by
    intro mso bytes hcreate hbytes
    cases hbytes
    have hcreated : createdMso = .ok mso := hcreate
    simp only [issuingCrates, hcreated, encodingCrates, if_true]
  have hbound : ∀ ns, issuedItems pidAttributes ns ≠ [] →
      (issuedItems pidAttributes ns).length + pidBuilder.decoysPerNamespace < 2 ^ 32 := by
    rintro ns -
    have hlength : (pidAttributes.filter fun attr => attr.ns = ns).length ≤ 3 := length_filter_le _ _
    rw [issuedItems, length_mapIdx]
    exact lt_of_le_of_lt (Nat.add_le_add_right hlength _) (by decide)
  obtain ⟨signed, hbuild, -, -, -, -, hresponse⟩ := issuance_exact pidSigner_laws pidBuilder rfl (.head _)
    pidAttributes hbound (fun _ _ => replicate 32 7) (fun _ => []) hmso
  exact ⟨signed, hbuild, (hresponse _).1 "ns", (hresponse _).1 "other"⟩

end AffinidiTdk.Mdoc
