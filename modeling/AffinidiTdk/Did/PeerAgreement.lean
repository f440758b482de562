/-
Making a `did:peer:2` and resolving it: the document has the keys and the services that were put in, but
an endpoint in the short form comes back without its accept list and its routing keys, because the long
form is tried first and takes a short one for a long one without lists.
-/
import AffinidiTdk.Did.Peer
import AffinidiTdk.Did.RoundTrip

namespace AffinidiTdk.Did

open Fallible List Option
open Abnf

/-! ## Services through their JSON -/

theorem mapM_asStr (texts : List String) : (texts.map Json.str).mapM Json.asStr = some texts := by
  induction texts with
  | nil => rfl
  | cons text texts ih => rw [map_cons, mapM_cons, ih]; rfl

variable {value : Json} {texts : List String}

theorem readList_strings {key : String} (h : value.get? key = some (strings texts)) :
    readList key value = some texts := by
  rw [readList, h]
  exact mapM_asStr texts

theorem readList_none {key : String} (h : value.get? key = none) : readList key value = some [] := by
  rw [readList, h]

theorem readList_member {key : String} {before after : Json.Fields} (hbefore : before.lookup key = none)
    (hafter : after.lookup key = none) :
    readList key (.obj (before ++ (listMember key texts ++ after))) = some texts := by
  cases texts with
  | nil =>
    refine readList_none ?_
    show lookup key (before ++ ([] ++ after)) = none
    rw [nil_append, lookup_append, hbefore, hafter]
    rfl
  | cons text texts =>
    refine readList_strings ?_
    show lookup key (before ++ ([(key, strings (text :: texts))] ++ after)) = _
    rw [lookup_append, hbefore, none_or, cons_append, lookup_cons_self]

theorem lookup_listMember {key other : String} (h : other ≠ key) (texts : List String) :
    (listMember key texts).lookup other = none := by
  unfold listMember
  split_ifs
  · rfl
  · rw [lookup_cons, beq_false_of_ne h]
    rfl

theorem PeerServiceEndpointLong.ofJson_members (e : PeerServiceEndpointLong) : ofJson (.obj e.members) = some e := by
  have haccept : readList "accept" (.obj ([("uri", .str e.uri)] ++ (listMember "accept" e.accept ++
      listMember "routing_keys" e.routingKeys))) = some e.accept :=
    readList_member rfl (lookup_listMember (by decide) _)
  have hrouting : readList "routing_keys" (.obj e.members) = some e.routingKeys := by
    have hmembers : e.members = ("uri", .str e.uri) :: listMember "accept" e.accept ++
        (listMember "routing_keys" e.routingKeys ++ []) := by
      rw [append_nil]
      rfl
    rw [hmembers]
    refine readList_member ?_ rfl
    rw [lookup_cons, show ("routing_keys" == "uri") = false from rfl]
    exact lookup_listMember (by decide) _
  have haccept : readList "accept" (.obj e.members) = some e.accept := haccept
  simp only [ofJson, haccept, hrouting]
  rfl

theorem PeerServiceEndpointLong.ofJson_short (e : PeerServiceEndpointShort) :
    ofJson (.obj e.members) = some ⟨e.uri, [], []⟩ := by
  have hnone : ∀ key, key ≠ "uri" → key ≠ "a" → key ≠ "r" → (Json.obj e.members).get? key = none := by
    intro key huri ha hr
    show lookup key (("uri", Json.str e.uri) :: (listMember "a" e.a ++ listMember "r" e.r)) = none
    rw [lookup_cons, beq_false_of_ne huri, lookup_append, lookup_listMember ha, lookup_listMember hr]
    rfl
  have haccept := readList_none (hnone "accept" (by decide) (by decide) (by decide))
  have hrouting := readList_none (hnone "routing_keys" (by decide) (by decide) (by decide))
  simp only [ofJson, haccept, hrouting]
  rfl

variable {α : Type} {write : α → Json}

theorem OneOrMany.ofJson_toJson {β : Type} {read : Json → Option β} {f : α → β}
    (hread : ∀ value, read (write value) = some (f value)) (harr : ∀ items, read (.arr items) = none)
    (value : OneOrMany α) : ofJson read (value.toJson write) = some (value.map f) := by
  cases value with
  | one value =>
    have hone : ofJson read (write value) = some (one (f value)) := by
      rw [ofJson, hread]
      rfl
    exact hone
  | many values =>
    have hmany : (values.map write).mapM read = some (values.map f) := by
      induction values with
      | nil => rfl
      | cons value values ih => rw [map_cons, mapM_cons, hread, ih]; rfl
    have hvalues : ofJson read (.arr (values.map write)) = some (many (values.map f)) := by
      rw [ofJson, harr, Json.asArray, bind_some, hmany]
      rfl
    exact hvalues

def PeerServiceEndpoint.received : PeerServiceEndpoint → PeerServiceEndpoint
  | uri text => uri text
  | long endpoints => long endpoints
  | short endpoints => long (endpoints.map fun e => ⟨e.uri, [], []⟩)

theorem PeerServiceEndpoint.ofJson_of_long {endpoints : OneOrMany PeerServiceEndpointLong}
    (hstr : value.asStr = none) (hlong : OneOrMany.ofJson PeerServiceEndpointLong.ofJson value = some endpoints) :
    ofJson value = some (long endpoints) := by
  rw [ofJson, hstr, hlong]
  rfl

theorem OneOrMany.asStr_toJson (hwrite : ∀ a, (write a).asStr = none) (value : OneOrMany α) :
    (value.toJson write).asStr = none := by
  cases value with
  | one value => exact hwrite value
  | many values => rfl

theorem OneOrMany.map_id (value : OneOrMany α) : value.map id = value := by
  cases value with
  | one value => rfl
  | many values => rw [OneOrMany.map, List.map_id]

theorem PeerServiceEndpoint.ofJson_toJson (endpoint : PeerServiceEndpoint) : ofJson endpoint.toJson =
    some endpoint.received := by
  cases endpoint with
  | uri text => rfl
  | long endpoints =>
    have hlong : OneOrMany.ofJson PeerServiceEndpointLong.ofJson (endpoints.toJson fun e => .obj e.members) =
        some (endpoints.map id) :=
      OneOrMany.ofJson_toJson PeerServiceEndpointLong.ofJson_members (fun _ => rfl) endpoints
    rw [endpoints.map_id] at hlong
    exact ofJson_of_long (OneOrMany.asStr_toJson (fun _ => rfl) endpoints) hlong
  | short endpoints =>
    exact ofJson_of_long (OneOrMany.asStr_toJson (fun _ => rfl) endpoints)
      (OneOrMany.ofJson_toJson PeerServiceEndpointLong.ofJson_short (fun _ => rfl) endpoints)

def PeerService.received (service : PeerService) : PeerService :=
    { service with endpoint := service.endpoint.received }

theorem PeerService.ofJson_toJson (service : PeerService) : ofJson service.toJson = some service.received := by
  obtain ⟨type, endpoint, id⟩ := service
  have hendpoint := PeerServiceEndpoint.ofJson_toJson endpoint
  cases id with
  | none =>
    show (do let endpoint ← PeerServiceEndpoint.ofJson endpoint.toJson; some (PeerService.mk type endpoint none)) = _
    rw [hendpoint]
    rfl
  | some id =>
    show (do
      let endpoint ← PeerServiceEndpoint.ofJson endpoint.toJson
      some (PeerService.mk type endpoint (some id))) = _
    rw [hendpoint]
    rfl

/-- The JSON reader reads what was written for a service. -/
def JsonReader.ReadsBack (reader : JsonReader) (service : PeerService) : Prop :=
  reader.fromSlice (Text.utf8 service.toJson.toText) = some service.toJson

theorem PeerService.decode_encode {reader : JsonReader} {service : PeerService} (h : reader.ReadsBack service) :
    decode reader service.encode = .ok service.received := by
  unfold decode encode
  simp only [stripPrefix_cons, getD_some, Base64.decode_encode, elim_some, pure_bind]
  rw [h, bind_some, ofJson_toJson, elim_some]
  rfl

/-! ## The text of a peer DID -/

def keyEntry (key : PeerCreateKey) : Text := key.purpose.toChar :: key.publicKeyMultibase.getD []

def entries (keys : List PeerCreateKey) (services : List PeerService) : List Text :=
  keys.map keyEntry ++ services.map PeerService.encode

def peerId (keys : List PeerCreateKey) (services : List PeerService) : Text :=
  '2' :: (entries keys services).flatMap ('.' :: ·)

/-- The characters of an entry. -/
def isEntryChar (c : Char) : Bool := c.isAlphanum || c == '-' || c == '_'

theorem isEntryChar_of_index? {c : Char} (h : (Base64.index? c).isSome) : isEntryChar c = true := by
  obtain ⟨n, hn⟩ := isSome_iff_exists.1 h
  obtain ⟨hlt, rfl⟩ := Base64.index?_eq_some hn
  have hall : ∀ n : Fin 64, isEntryChar (Base64.char n) = true := by decide
  exact hall ⟨n, hlt⟩

theorem encode_chars (service : PeerService) : ∀ c ∈ service.encode, isEntryChar c = true := by
  intro c hc
  rcases mem_cons.1 hc with rfl | hc
  · rfl
  · exact isEntryChar_of_index? (Base64.index?_of_mem_encode _ c hc)

section Agreement

variable {Url : Type} {crates : Decoders Url} {reader : JsonReader} {keys : List PeerCreateKey}
  {services : List PeerService}

/-- What the other crates are relied on for: URLs are accepted, and base58 has its own characters. -/
structure Decoders.Documented (crates : Decoders Url) : Prop where
  parseUrl_didUrl : ∀ s ∈ Grammar.didUrl, ∃ url, crates.parseUrl s = .ok url
  bs58_alphabet : ∀ text bytes, crates.bs58Decode text = .ok bytes → ∀ c ∈ text, c.isAlphanum = true

/-- A multibase key is given, and it decodes. -/
def KeyGiven (crates : Decoders Url) (key : PeerCreateKey) : Prop :=
  ∃ multibase decoded, key.publicKeyMultibase = some multibase ∧ decodeMultikeyWithCodec crates multibase =
    .ok decoded

/-- The id of a service and the URI of a plain endpoint are URLs. -/
structure ServiceValid (crates : Decoders Url) (did : Text) (service : PeerService) : Prop where
  id_ok : ∀ id ∈ service.id, ∃ url, crates.parseUrl (did ++ id.toList) = .ok url
  uri_ok : ∀ text, service.endpoint = .uri text → ∃ url, crates.parseUrl text.toList = .ok url

theorem decodeMultikey_chars (hcrates : crates.Documented) {multibase : Text} {decoded : ℕ × List UInt8}
    (h : decodeMultikeyWithCodec crates multibase = .ok decoded) :
    multibase ≠ [] ∧ ∀ c ∈ multibase, isEntryChar c = true := by
  obtain ⟨bytes, hbytes, -⟩ := bind_eq_ok_iff.1 h
  unfold decodeBase58btc at hbytes
  cases hstrip : stripPrefix ['z'] multibase with
  | none =>
    rw [hstrip] at hbytes
    cases hbytes
  | some encoded =>
    rw [hstrip] at hbytes
    obtain rfl := stripPrefix_eq_some_iff.1 hstrip
    refine ⟨nofun, fun c hc => ?_⟩
    rcases mem_cons.1 hc with rfl | hc
    · rfl
    · rw [isEntryChar, hcrates.bs58_alphabet _ _ (mapError_eq_ok_iff.1 hbytes) c hc]
      rfl

theorem entries_chars (hcrates : crates.Documented) (hkeys : ∀ key ∈ keys, KeyGiven crates key) :
    ∀ entry ∈ entries keys services, entry ≠ [] ∧ ∀ c ∈ entry, isEntryChar c = true := by
  intro entry hentry
  rcases mem_append.1 hentry with h | h
  · obtain ⟨key, hkey, rfl⟩ := mem_map.1 h
    obtain ⟨multibase, decoded, hmultibase, hdecoded⟩ := hkeys key hkey
    rw [keyEntry, hmultibase]
    refine ⟨nofun, fun c hc => ?_⟩
    rcases mem_cons.1 hc with rfl | hc
    · cases key.purpose <;> rfl
    · exact (decodeMultikey_chars hcrates hdecoded).2 c hc
  · obtain ⟨service, -, rfl⟩ := mem_map.1 h
    exact ⟨nofun, encode_chars service⟩

theorem splitOn_entries (hcrates : crates.Documented) (hkeys : ∀ key ∈ keys, KeyGiven crates key)
    (hne : entries keys services ≠ []) :
    (['.'].intercalate (entries keys services)).splitOn '.' = entries keys services := by
  refine splitOn_intercalate '.' (fun entry hentry hdot => ?_) hne
  exact absurd ((entries_chars hcrates hkeys entry hentry).2 '.' hdot) (by decide)

theorem peerId_eq (hne : entries keys services ≠ []) :
    peerId keys services = '2' :: '.' :: ['.'].intercalate (entries keys services) := by
  rw [peerId, flatMap_def, ← cons_intercalate '.' hne]

theorem validateSequence_of_all {allowed : Char → Bool} : {s : Text} → (∀ c ∈ s, allowed c = true) →
    validateSequence allowed s = .ok ()
  | [], _ => rfl
  | c :: s, h => by
    unfold validateSequence
    rw [if_pos (h c mem_cons_self)]
    exact validateSequence_of_all fun d hd => h d (mem_cons_of_mem c hd)

theorem validate_peerId (hcrates : crates.Documented) (hkeys : ∀ key ∈ keys, KeyGiven crates key) :
    validateIdentifierFormat (peerId keys services) = .ok () := by
  have hchars : ∀ c ∈ peerId keys services, isIdchar c = true := by
    intro c hc
    rcases mem_cons.1 hc with rfl | hc
    · rfl
    · obtain ⟨entry, hentry, hc⟩ := mem_flatMap.1 hc
      rcases mem_cons.1 hc with rfl | hc
      · rfl
      · have hentryChar := (entries_chars hcrates hkeys entry hentry).2 c hc
        simp only [isEntryChar, Bool.or_eq_true] at hentryChar
        simp only [isIdchar, Bool.or_eq_true]
        rcases hentryChar with (h | h) | h
        · exact .inl (.inl (.inl h))
        · exact .inl (.inr h)
        · exact .inr h
  have hlast : (peerId keys services).getLast? ≠ some ':' := fun hlast =>
    absurd (hchars ':' (mem_of_getLast? hlast)) (by decide)
  unfold validateIdentifierFormat
  refine guard_eq_ok_iff.2 ⟨nofun, guard_eq_ok_iff.2 ⟨hlast, ?_⟩⟩
  refine mapError_eq_ok_iff.2 (validateSequence_of_all fun c hc => ?_)
  rw [hchars c hc, Bool.true_or]

theorem checkPeerPart_entry (hkeys : ∀ key ∈ keys, KeyGiven crates key) :
    ∀ entry ∈ entries keys services, checkPeerPart crates entry = .ok () := by
  intro entry hentry
  rcases mem_append.1 hentry with h | h
  · obtain ⟨key, hkey, rfl⟩ := mem_map.1 h
    obtain ⟨multibase, decoded, hmultibase, hdecoded⟩ := hkeys key hkey
    have hne : multibase.isEmpty = false := by
      cases multibase with
      | nil => cases hdecoded
      | cons c multibase => rfl
    rw [keyEntry, hmultibase]
    cases key.purpose
    all_goals
      simp only [checkPeerPart, PeerKeyPurpose.toChar, PeerPurpose.fromChar, getD_some, hne, hdecoded]
      rfl
  · obtain ⟨service, -, rfl⟩ := mem_map.1 h
    rfl

theorem parse_peerId (hcrates : crates.Documented) (hkeys : ∀ key ∈ keys, KeyGiven crates key)
    (hne : entries keys services ≠ []) :
    parseMethod crates "peer".toList (peerId keys services) = .ok (.peer (peerId keys services) .multipleKeys) := by
  have hcheck : checkMultipleKeys crates (peerId keys services) = .ok () := by
    rw [peerId_eq hne]
    unfold checkMultipleKeys
    refine guard_eq_ok_iff.2 ⟨?_, ?_⟩
    · simp
    · show (splitOn '.' (['.'].intercalate (entries keys services))).forM _ = _
      rw [splitOn_entries hcrates hkeys hne, forM_eq_ok_iff]
      exact checkPeerPart_entry hkeys
  have hparser : (parsers crates).lookup "peer".toList = some (parsePeer crates) := by rfl
  refine unit_bind_eq_ok_iff.2 ⟨validate_peerId hcrates hkeys, ?_⟩
  rw [hparser]
  show parsePeer crates (peerId keys services) = _
  rw [peerId] at hcheck ⊢
  show (do checkMultipleKeys crates _; pure _) = _
  rw [hcheck]
  rfl

/-! ## Generation -/

variable {generate : PeerKeyType → Except DIDError PeerCreatedKey}

theorem mapM_keyPart (hkeys : ∀ key ∈ keys, KeyGiven crates key) : keys.mapM (keyPart generate) =
    .ok (keys.map fun key => (keyEntry key, none)) := by
  induction keys with
  | nil => rfl
  | cons key keys ih =>
    obtain ⟨⟨multibase, decoded, hmultibase, -⟩, hrest⟩ := forall_mem_cons.1 hkeys
    have hpart : keyPart generate key = .ok (keyEntry key, none) := by
      rw [keyPart, keyEntry, hmultibase]
      rfl
    rw [mapM_cons, hpart, ih hrest]
    rfl

variable {did : DID Url} {created : List PeerCreatedKey}

theorem generatePeer_eq_ok_iff (hkeys : ∀ key ∈ keys, KeyGiven crates key) : generatePeer crates generate keys
    (some services) = .ok (did, created) ↔ DID.fromStr crates
    ("did:".toList ++ ("peer".toList ++ ':' :: peerId keys services)) = .ok did ∧ created = [] := by
  have htext : "did:peer:2".toList ++ (entries keys services).flatMap ('.' :: ·) =
      "did:".toList ++ ("peer".toList ++ ':' :: peerId keys services) := by
    rw [peerId]
    rfl
  have hfst : (keys.map fun key => (keyEntry key, (none : Option PeerCreatedKey))).map Prod.fst =
    keys.map keyEntry := by
    rw [List.map_map]
    rfl
  have hsnd : (keys.map fun key => (keyEntry key, (none : Option PeerCreatedKey))).filterMap Prod.snd = [] := by
    rw [filterMap_map]
    exact filterMap_eq_nil_iff.2 fun _ _ => rfl
  unfold generatePeer
  rw [mapM_keyPart hkeys, ok_bind, hfst, getD_some, ← entries]
  dsimp only
  rw [htext, hsnd, bind_eq_ok_iff]
  constructor
  · rintro ⟨did', hdid, h⟩
    cases pure_eq_ok_iff.1 h
    exact ⟨hdid, rfl⟩
  · rintro ⟨hdid, rfl⟩
    exact ⟨did, hdid, rfl⟩

def peerDid (keys : List PeerCreateKey) (services : List PeerService) (url : Url) : DID Url :=
  ⟨.peer (peerId keys services) .multipleKeys, none, none, none, url⟩

theorem peerName_ok : isMethodName "peer".toList = true := by decide

theorem didTail_id (id : Text) : didTail id none none none = id := append_nil id

/-- Names in the document of a peer DID are DID URLs. -/
theorem peer_url_ok (hcrates : crates.Documented) (hkeys : ∀ key ∈ keys, KeyGiven crates key) {fragment : Text}
    (hfragment : validateFragment fragment = .ok ()) (url : Url) :
    ∃ id, crates.parseUrl ((peerDid keys services url).toText ++ '#' :: fragment) = .ok id := by
  refine hcrates.parseUrl_didUrl _ (mem_didUrl_iff.2 ⟨"peer".toList, peerId keys services, none, none, some fragment,
    peerName_ok, ⟨validate_peerId hcrates hkeys, (fun _ h => nomatch h), (fun _ h => nomatch h),
      fun t ht => some.inj ht ▸ hfragment⟩, ?_⟩)
  rw [DID.toText, didString_eq]
  show "did:".toList ++ ("peer".toList ++ ':' :: didTail (peerId keys services) none none none) ++
    '#' :: fragment = _
  rw [didTail_id]
  unfold didTail
  generalize "did:".toList = start
  generalize "peer".toList = name
  simp only [component_none, component_some, append_assoc, cons_append, nil_append]

theorem fromStr_peer (hcrates : crates.Documented) (hkeys : ∀ key ∈ keys, KeyGiven crates key)
    (hne : entries keys services ≠ []) :
    ∃ url, DID.fromStr crates ("did:".toList ++ ("peer".toList ++ ':' :: peerId keys services)) =
      .ok (peerDid keys services url) := by
  have hwf : WellFormed (peerId keys services) none none none :=
    ⟨validate_peerId hcrates hkeys, (fun _ h => nomatch h), (fun _ h => nomatch h), fun _ h => nomatch h⟩
  have hmem : didString (.peer (peerId keys services) .multipleKeys) none none none ∈ Grammar.didUrl :=
    mem_didUrl_iff.2 ⟨"peer".toList, peerId keys services, none, none, none, peerName_ok, hwf, didString_eq _ _ _ _⟩
  obtain ⟨url, hurl⟩ := hcrates.parseUrl_didUrl _ hmem
  refine ⟨url, fromStr_eq_ok_iff.2
    ⟨"peer".toList, peerId keys services, ⟨peerId keys services, none, none, none⟩, _, rfl,
    peerName_ok, ?_, parse_peerId hcrates hkeys hne, build_eq_ok_iff.2 ⟨url, hurl, rfl⟩⟩⟩
  have hparse := (parseDidUrlComponents_didTail hwf.separated none ⟨peerId keys services, none, none, none⟩).2
    ⟨hwf.path_ok, hwf.query_ok, hwf.fragment_ok, rfl⟩
  rwa [didTail_id] at hparse

theorem fromStr_peer_empty : DID.fromStr crates ("did:".toList ++ ("peer".toList ++ ':' :: peerId [] [])) ≠
    .ok did := by
  intro h
  obtain ⟨name, rest, components, method, hs, hname, hcomponents, hmethod, -⟩ := fromStr_eq_ok_iff.1 h
  have hsplit := splitOnce_append_of hname rest
  rw [← append_cancel_left hs, splitOnce_append_of peerName_ok] at hsplit
  cases hsplit
  have hsplitId : splitComponents (peerId [] []) = ⟨['2'], none, none, none⟩ := by decide
  have hcomponents' : components = ⟨['2'], none, none, none⟩ := by
    unfold parseDidUrlComponents at hcomponents
    rw [hsplitId] at hcomponents
    exact (Except.ok.inj hcomponents).symm
  rw [hcomponents'] at hmethod
  cases hmethod

/-! ## Resolution -/

def kidsOf (purpose : PeerKeyPurpose) (did : DID Url) (keys : List PeerCreateKey) : List Text :=
  (keys.zipIdx.filter fun entry => entry.1.purpose = purpose).map fun entry => keyId did.toText (entry.2 + 1)

/-- The verification method of a key at its place. -/
def MethodOf (crates : Decoders Url) (did : DID Url) (vm : VerificationMethod Url) (entry : PeerCreateKey × ℕ) :
    Prop :=
  ∃ id, crates.parseUrl (keyId did.toText (entry.2 + 1)) = .ok id ∧
    vm = ⟨id, "Multikey", did.url, none, none,
      [("publicKeyMultibase", .str (str (entry.1.publicKeyMultibase.getD [])))]⟩

/-- The document after the keys and some of the services. -/
structure Resolved (crates : Decoders Url) (did : DID Url) (keys : List PeerCreateKey) (services : List PeerService)
    (doc : PeerDocument Url) : Prop where
  methods : List.Forall₂ (MethodOf crates did) doc.verificationMethods keys.zipIdx
  authentication : doc.authentication = kidsOf .verification did keys
  assertionMethod : doc.assertionMethod = kidsOf .verification did keys
  keyAgreement : doc.keyAgreement = kidsOf .encryption did keys
  delegation : doc.capabilityDelegation = []
  invocation : doc.capabilityInvocation = []
  keyCount : doc.keyCount = keys.length
  served : List.Forall₂ (fun s entry => entry.1.received.toDidService crates did.toText entry.2 = .ok s) doc.services
    services.zipIdx
  serviceIdx : doc.serviceIdx = services.length

theorem resolved_empty (did : DID Url) : Resolved crates did [] [] PeerDocument.empty :=
  ⟨.nil, rfl, rfl, rfl, rfl, rfl, rfl, .nil, rfl⟩

theorem kidsOf_concat (purpose : PeerKeyPurpose) (did : DID Url) (keys : List PeerCreateKey) (key : PeerCreateKey) :
    kidsOf purpose did (keys ++ [key]) = kidsOf purpose did keys ++
      if key.purpose = purpose then [keyId did.toText (keys.length + 1)] else [] := by
  unfold kidsOf
  rw [zipIdx_append, filter_append, map_append]
  congr 1
  show ((([(key, 0 + keys.length)] : List (PeerCreateKey × ℕ)).filter _).map _) = _
  rw [Nat.zero_add, filter_cons]
  split_ifs with h h' <;> simp_all

variable {α : Type}

theorem forall₂_concat {β : Type} {R : α → β → Prop} {as : List α} {bs : List β} {a : α} {b : β}
    (h : Forall₂ R as bs) (hab : R a b) : Forall₂ R (as ++ [a]) (bs ++ [b]) :=
  rel_append h (.cons hab .nil)

/-- The purpose as the document's side names it. -/
def PeerKeyPurpose.toPurpose : PeerKeyPurpose → PeerPurpose
  | .verification => .verification
  | .encryption => .encryption

variable {doc : PeerDocument Url}

theorem Resolved.key (reader : JsonReader) (h : Resolved crates did keys [] doc) (key : PeerCreateKey) {id : Url}
    (hid : crates.parseUrl (keyId did.toText (keys.length + 1)) = .ok id) : ∃ doc', resolvePart crates reader did
    doc (keyEntry key) = .ok doc' ∧ Resolved crates did (keys ++ [key]) [] doc' := by
  have hmethods : ∀ vm, MethodOf crates did vm (key, keys.length) →
      Forall₂ (MethodOf crates did) (doc.verificationMethods ++ [vm]) (keys ++ [key]).zipIdx := by
    intro vm hvm
    rw [zipIdx_append]
    refine forall₂_concat h.methods ?_
    rw [Nat.zero_add]
    exact hvm
  have hkid : crates.parseUrl (keyId did.toText (doc.keyCount + 1)) = .ok id := by rw [h.keyCount, hid]
  have hstep : resolvePart crates reader did doc (keyEntry key) =
    .ok (PeerDocument.relate (keyId did.toText (doc.keyCount + 1))
      { doc with
        verificationMethods := doc.verificationMethods ++ [⟨id, "Multikey", did.url, none, none,
          [("publicKeyMultibase", .str (str (key.publicKeyMultibase.getD [])))]⟩],
        keyCount := doc.keyCount + 1 } key.purpose.toPurpose) := by
    rw [keyEntry]
    cases key.purpose
    all_goals
      simp only [resolvePart, PeerKeyPurpose.toChar, PeerPurpose.fromChar, hkid]
      rfl
  refine ⟨_, hstep, ?_⟩
  have hlength : (keys ++ [key]).length = keys.length + 1 := length_append
  have hverification := kidsOf_concat .verification did keys key
  have hencryption := kidsOf_concat .encryption did keys key
  cases hpurpose : key.purpose with
  | verification =>
    rw [hpurpose, if_pos rfl] at hverification
    rw [hpurpose, if_neg nofun, append_nil] at hencryption
    refine ⟨hmethods _ ⟨id, hid, rfl⟩, ?_, ?_, ?_, h.delegation, h.invocation, ?_, h.served, h.serviceIdx⟩
    · rw [hverification, ← h.authentication, ← h.keyCount]; rfl
    · rw [hverification, ← h.assertionMethod, ← h.keyCount]; rfl
    · rw [hencryption, ← h.keyAgreement]; rfl
    · rw [hlength, ← h.keyCount]; rfl
  | encryption =>
    rw [hpurpose, if_neg nofun, append_nil] at hverification
    rw [hpurpose, if_pos rfl] at hencryption
    refine ⟨hmethods _ ⟨id, hid, rfl⟩, ?_, ?_, ?_, h.delegation, h.invocation, ?_, h.served, h.serviceIdx⟩
    · rw [hverification, ← h.authentication]; rfl
    · rw [hverification, ← h.assertionMethod]; rfl
    · rw [hencryption, ← h.keyAgreement, ← h.keyCount]; rfl
    · rw [hlength, ← h.keyCount]; rfl

theorem Resolved.service (h : Resolved crates did keys services doc) {service : PeerService}
    (hreader : reader.ReadsBack service) {s : Service Url}
    (hs : service.received.toDidService crates did.toText services.length = .ok s) :
    ∃ doc', resolvePart crates reader did doc service.encode = .ok doc' ∧ Resolved crates did keys
    (services ++ [service]) doc' := by
  have hstep : resolvePart crates reader did doc service.encode =
      .ok { doc with services := doc.services ++ [s], serviceIdx := doc.serviceIdx + 1 } := by
    have hdecode := PeerService.decode_encode hreader
    rw [← h.serviceIdx] at hs
    rw [PeerService.encode] at hdecode ⊢
    simp only [resolvePart, PeerPurpose.fromChar, hdecode, hs, mapError_ok, ok_bind]
    rfl
  refine ⟨_, hstep, h.methods, h.authentication, h.assertionMethod, h.keyAgreement, h.delegation, h.invocation,
    h.keyCount, ?_, ?_⟩
  · rw [zipIdx_append]
    refine forall₂_concat h.served ?_
    rw [Nat.zero_add]
    exact hs
  · rw [length_append, ← h.serviceIdx]
    rfl

theorem foldlM_concat {σ ε : Type} {f : σ → α → Except ε σ} {init mid last : σ} {xs : List α} {x : α}
    (hmid : xs.foldlM f init = .ok mid) (hlast : f mid x = .ok last) : (xs ++ [x]).foldlM f init = .ok last := by
  rw [foldlM_append, hmid, ok_bind, foldlM_cons, hlast]
  rfl

theorem resolve_keys (reader : JsonReader) (did : DID Url)
    (hkid : ∀ n, ∃ id, crates.parseUrl (keyId did.toText n) = .ok id)
    (keys : List PeerCreateKey) :
    ∃ doc, (keys.map keyEntry).foldlM (resolvePart crates reader did) PeerDocument.empty = .ok doc ∧
      Resolved crates did keys [] doc := by
  induction keys using reverseRecOn with
  | nil => exact ⟨_, rfl, resolved_empty did⟩
  | append_singleton keys key ih =>
    obtain ⟨doc, hdoc, hresolved⟩ := ih
    obtain ⟨id, hid⟩ := hkid (keys.length + 1)
    obtain ⟨doc', hstep, hresolved'⟩ := hresolved.key reader key hid
    refine ⟨doc', ?_, hresolved'⟩
    rw [map_append]
    exact foldlM_concat hdoc hstep

theorem resolve_services (h : Resolved crates did keys [] doc) (services : List PeerService)
    (hreader : ∀ service ∈ services, reader.ReadsBack service)
    (hvalid : ∀ service ∈ services, ∀ index, ∃ s, service.received.toDidService crates did.toText index = .ok s) :
    ∃ doc', (services.map PeerService.encode).foldlM (resolvePart crates reader did) doc = .ok doc' ∧
    Resolved crates did keys services doc' := by
  induction services using reverseRecOn with
  | nil => exact ⟨doc, rfl, h⟩
  | append_singleton services service ih =>
    obtain ⟨doc', hdoc', hresolved⟩ := ih (fun s hs => hreader s (mem_append_left _ hs))
      fun s hs => hvalid s (mem_append_left _ hs)
    have hmem : service ∈ services ++ [service] := mem_append_right _ mem_cons_self
    obtain ⟨s, hs⟩ := hvalid service hmem services.length
    obtain ⟨doc'', hstep, hresolved'⟩ := hresolved.service (hreader service hmem) hs
    refine ⟨doc'', ?_, hresolved'⟩
    rw [map_append]
    exact foldlM_concat hdoc' hstep

/-- What a document says of an endpoint that was put in. -/
def EndpointOf (crates : Decoders Url) : PeerServiceEndpoint → Endpoint Url → Prop
  | .uri text, endpoint => ∃ url, crates.parseUrl text.toList = .ok url ∧ endpoint = .url url
  | .long endpoints, endpoint => endpoint = .map (endpoints.toJson PeerServiceEndpointLong.toValue)
  | .short endpoints, endpoint =>
    endpoint = .map ((endpoints.map PeerServiceEndpointShort.toLong).toJson PeerServiceEndpointLong.toValue)

/-- What a document says of a service that was put in, at its place. -/
def ServiceOf (crates : Decoders Url) (did : DID Url) (s : Service Url) (entry : PeerService × ℕ) : Prop :=
  ∃ id endpoint, crates.parseUrl (did.toText ++ entry.1.idFragment entry.2) = .ok id ∧
    EndpointOf crates entry.1.endpoint endpoint ∧ s = ⟨some id, [entry.1.fullType], endpoint, []⟩

/-- The document has the keys and the services that were put in, in their order. -/
structure Agrees (crates : Decoders Url) (did : DID Url) (keys : List PeerCreateKey) (services : List PeerService)
    (doc : Document Url) : Prop where
  methods : List.Forall₂ (MethodOf crates did) doc.verificationMethod keys.zipIdx
  authentication : doc.authentication = kidsOf .verification did keys
  assertionMethod : doc.assertionMethod = kidsOf .verification did keys
  keyAgreement : doc.keyAgreement = kidsOf .encryption did keys
  delegation : doc.capabilityDelegation = []
  invocation : doc.capabilityInvocation = []
  served : List.Forall₂ (ServiceOf crates did) doc.service services.zipIdx

def OneOrMany.toList {α : Type} : OneOrMany α → List α
  | one value => [value]
  | many values => values

/-- No endpoint in the short form has a list. -/
def PeerServiceEndpoint.NoShortLists : PeerServiceEndpoint → Prop
  | short endpoints => ∀ e ∈ endpoints.toList, e.a = [] ∧ e.r = []
  | _ => True

theorem lookup_foldl_listMember (key other : String) (texts : List String) (fields : Json.Fields) :
    ((listMember key texts).foldl
      (fun fields member => Json.Fields.insert member.1 member.2 fields) fields).lookup other =
      if other = key ∧ texts ≠ [] then some (strings texts) else fields.lookup other := by
  cases texts with
  | nil =>
    rw [if_neg fun h => h.2 rfl]
    rfl
  | cons text texts =>
    show (Json.Fields.insert key (strings (text :: texts)) fields).lookup other = _
    rw [Json.Fields.lookup_insert_eq]
    exact if_congr (iff_self_and.2 fun _ => nofun) rfl rfl

theorem PeerServiceEndpointLong.get?_toValue (e : PeerServiceEndpointLong) (key : String) :
    e.toValue.get? key = if key = "routing_keys" ∧ e.routingKeys ≠ [] then some (strings e.routingKeys)
      else if key = "accept" ∧ e.accept ≠ [] then some (strings e.accept)
      else if key = "uri" then some (.str e.uri) else none := by
  show lookup key (e.members.foldl _ []) = _
  rw [members, foldl_cons, foldl_append, lookup_foldl_listMember, lookup_foldl_listMember,
    Json.Fields.lookup_insert_eq]
  rfl

theorem readList_of_get? {key : String} {value : Json} {texts : List String}
    (h : value.get? key = if texts ≠ [] then some (strings texts) else none) : readList key value = some texts := by
  cases texts with
  | nil => exact readList_none h
  | cons text texts => exact readList_strings h

theorem PeerServiceEndpointLong.ofJson_toValue (e : PeerServiceEndpointLong) : ofJson e.toValue = some e := by
  have huri : e.toValue.get? "uri" = some (.str e.uri) := by
    rw [get?_toValue, if_neg (fun h => absurd h.1 (by decide)), if_neg (fun h => absurd h.1 (by decide)), if_pos rfl]
  have haccept : readList "accept" e.toValue = some e.accept := by
    refine readList_of_get? ?_
    rw [get?_toValue, if_neg (fun h => absurd h.1 (by decide)), if_neg (show ¬"accept" = "uri" by decide)]
    exact if_congr (and_iff_right rfl) rfl rfl
  have hrouting : readList "routing_keys" e.toValue = some e.routingKeys := by
    refine readList_of_get? ?_
    rw [get?_toValue, if_neg (show ¬("routing_keys" = "accept" ∧ _) from fun h => absurd h.1 (by decide)),
      if_neg (show ¬"routing_keys" = "uri" by decide)]
    exact if_congr (and_iff_right rfl) rfl rfl
  rw [ofJson, huri, haccept, hrouting]
  rfl

theorem toJson_toValue_injective {a b : OneOrMany PeerServiceEndpointLong}
    (h : a.toJson PeerServiceEndpointLong.toValue = b.toJson PeerServiceEndpointLong.toValue) : a = b := by
  have hread : ∀ x : OneOrMany PeerServiceEndpointLong,
      OneOrMany.ofJson PeerServiceEndpointLong.ofJson (x.toJson PeerServiceEndpointLong.toValue) = some (x.map id) :=
    OneOrMany.ofJson_toJson PeerServiceEndpointLong.ofJson_toValue fun _ => rfl
  have hsame := hread a
  rw [h, hread b, a.map_id, b.map_id] at hsame
  exact (some.inj hsame).symm

theorem short_lists_iff (endpoints : OneOrMany PeerServiceEndpointShort) :
    (endpoints.map fun e => (⟨e.uri, [], []⟩ : PeerServiceEndpointLong)) =
      endpoints.map PeerServiceEndpointShort.toLong ↔
      ∀ e ∈ endpoints.toList, e.a = [] ∧ e.r = [] := by
  have hone : ∀ e : PeerServiceEndpointShort, (⟨e.uri, [], []⟩ : PeerServiceEndpointLong) = e.toLong ↔ e.a = [] ∧
    e.r = [] := by
    intro e
    rw [PeerServiceEndpointShort.toLong, PeerServiceEndpointLong.mk.injEq]
    exact ⟨fun h => ⟨h.2.1.symm, h.2.2.symm⟩, fun h => ⟨rfl, h.1.symm, h.2.symm⟩⟩
  cases endpoints with
  | one e =>
    rw [OneOrMany.map, OneOrMany.map, OneOrMany.one.injEq, hone, OneOrMany.toList, forall_mem_singleton]
  | many es =>
    rw [OneOrMany.map, OneOrMany.map, OneOrMany.many.injEq, OneOrMany.toList, map_inj_left]
    exact forall₂_congr fun e _ => hone e

theorem serviceOf_iff {service : PeerService} {index : ℕ} {s : Service Url}
    (h : service.received.toDidService crates did.toText index = .ok s) : ServiceOf crates did s (service, index) ↔
    service.endpoint.NoShortLists := by
  obtain ⟨id, hid, h⟩ := bind_eq_ok_iff.1 h
  have hid := mapError_eq_ok_iff.1 hid
  have hiff : ∀ endpoint, ServiceOf crates did ⟨some id, [service.received.fullType], endpoint, []⟩
    (service, index) ↔
      EndpointOf crates service.endpoint endpoint := by
    intro endpoint
    constructor
    · rintro ⟨id', endpoint', -, hendpoint', hs⟩
      obtain ⟨-, -, rfl, -⟩ := (Service.mk.injEq ..).mp hs
      exact hendpoint'
    · exact fun hendpoint' => ⟨id, endpoint, hid, hendpoint', rfl⟩
  obtain ⟨type, given, id?⟩ := service
  cases given with
  | uri text =>
    obtain ⟨url, hurl, h⟩ := bind_eq_ok_iff.1 h
    obtain rfl := pure_eq_ok_iff.1 h
    rw [hiff]
    exact iff_of_true ⟨url, mapError_eq_ok_iff.1 hurl, rfl⟩ trivial
  | long endpoints =>
    obtain rfl := pure_eq_ok_iff.1 h
    rw [hiff]
    exact iff_of_true rfl trivial
  | short endpoints =>
    obtain rfl := pure_eq_ok_iff.1 h
    rw [hiff]
    show Endpoint.map _ = Endpoint.map _ ↔ _
    rw [Endpoint.map.injEq]
    exact ⟨fun hsame => (short_lists_iff endpoints).1 (toJson_toValue_injective hsame),
      fun hlists => congrArg _ ((short_lists_iff endpoints).2 hlists)⟩

/-! ## What was put in is what comes back -/

theorem validateFragment_of_pchar {text : Text} (h : ∀ c ∈ text, isPchar c = true) :
    validateFragment text = .ok () := by
  refine mapError_eq_ok_iff.2 (validateSequence_of_all fun c hc => ?_)
  rw [h c hc, Bool.true_or]

theorem validate_numbered {start : Text} (hstart : ∀ c ∈ start, isPchar c = true) (n : ℕ) :
    validateFragment (start ++ (toString n).toList) = .ok () := by
  refine validateFragment_of_pchar fun c hc => ?_
  rcases mem_append.1 hc with hc | hc
  · exact hstart c hc
  · have hmem : c ∈ Nat.toDigits 10 n := by simpa using hc
    have hdigit : c.isDigit = true := Nat.isDigit_of_mem_toDigits (by decide) (by decide) hmem
    rw [isPchar, isUnreserved, Char.isAlphanum, hdigit]
    simp

def peerText (keys : List PeerCreateKey) (services : List PeerService) : Text :=
  "did:".toList ++ ("peer".toList ++ ':' :: peerId keys services)

theorem toText_peerDid (url : Url) : (peerDid keys services url).toText = peerText keys services := by
  rw [DID.toText, didString_eq]
  show "did:".toList ++ ("peer".toList ++ ':' :: didTail (peerId keys services) none none none) = _
  rw [didTail_id]
  rfl

theorem toDidService_ok (hcrates : crates.Documented) (hkeys : ∀ key ∈ keys, KeyGiven crates key) (url : Url)
    {service : PeerService} (hservice : ServiceValid crates (peerText keys services) service) (index : ℕ) :
    ∃ s, service.received.toDidService crates (peerDid keys services url).toText index = .ok s := by
  have hfragment : ∃ id,
    crates.parseUrl ((peerDid keys services url).toText ++ service.received.idFragment index) = .ok id := by
    obtain ⟨type, endpoint, id?⟩ := service
    cases id? with
    | some id =>
      rw [toText_peerDid]
      exact hservice.id_ok id rfl
    | none =>
      have hfirst : "#service".toList = '#' :: "service".toList := by rfl
      have hnumbered : "#service-".toList ++ (toString index).toList =
        '#' :: ("service-".toList ++ (toString index).toList) := by
        rfl
      have hid : PeerService.idFragment (PeerService.received ⟨type, endpoint, none⟩) index =
          if index = 0 then '#' :: "service".toList else '#' :: ("service-".toList ++ (toString index).toList) := by
        rw [← hfirst, ← hnumbered]
        rfl
      rw [hid]
      split_ifs with hindex
      · have hplain : validateFragment "service".toList = .ok () :=
          validateFragment_of_pchar (all_eq_true.1 rfl)
        exact peer_url_ok hcrates hkeys hplain url
      · have hplain : validateFragment ("service-".toList ++ (toString index).toList) = .ok () :=
          validate_numbered (all_eq_true.1 rfl) index
        exact peer_url_ok hcrates hkeys hplain url
  obtain ⟨id, hid⟩ := hfragment
  unfold PeerService.toDidService
  rw [hid, mapError_ok, ok_bind]
  obtain ⟨type, endpoint, id?⟩ := service
  cases endpoint with
  | uri text =>
    obtain ⟨url', hurl⟩ := hservice.uri_ok text rfl
    refine ⟨_, bind_eq_ok_iff.2 ⟨url', mapError_eq_ok_iff.2 hurl, rfl⟩⟩
  | long endpoints => exact ⟨_, rfl⟩
  | short endpoints => exact ⟨_, rfl⟩

theorem resolve_peer (hcrates : crates.Documented) (hkeys : ∀ key ∈ keys, KeyGiven crates key)
    (hreader : ∀ service ∈ services, reader.ReadsBack service)
    (hservices : ∀ service ∈ services, ServiceValid crates (peerText keys services) service)
    (hne : entries keys services ≠ []) (resolveKey : DID Url → Except DIDError (Document Url)) (url : Url) :
    ∃ doc, (peerDid keys services url).resolve crates reader resolveKey = .ok doc ∧ ∃ parts,
    Resolved crates (peerDid keys services url) keys services parts ∧ doc.verificationMethod =
    parts.verificationMethods ∧ doc.authentication = parts.authentication ∧ doc.assertionMethod =
    parts.assertionMethod ∧ doc.keyAgreement = parts.keyAgreement ∧ doc.capabilityDelegation =
    parts.capabilityDelegation ∧ doc.capabilityInvocation = parts.capabilityInvocation ∧ doc.service =
    parts.services := by
  have hkid : ∀ n, ∃ id, crates.parseUrl (keyId (peerDid keys services url).toText n) = .ok id := by
    intro n
    have hplain : validateFragment ("key-".toList ++ (toString n).toList) = .ok () :=
      validate_numbered (all_eq_true.1 rfl) n
    have hhash : "#key-".toList ++ (toString n).toList = '#' :: ("key-".toList ++ (toString n).toList) := by rfl
    rw [keyId, append_assoc, hhash]
    exact peer_url_ok hcrates hkeys hplain url
  obtain ⟨doc₁, hdoc₁, hresolved₁⟩ := resolve_keys reader (peerDid keys services url) hkid keys
  obtain ⟨doc₂, hdoc₂, hresolved₂⟩ := resolve_services hresolved₁ services hreader fun service hservice =>
    toDidService_ok hcrates hkeys url (hservices service hservice)
  have hparts : ((['.'] ++ ['.'].intercalate (entries keys services)).splitOn '.').filter
    (fun part => !part.isEmpty) =
      entries keys services := by
    have hsplit : (['.'].intercalate ([] :: entries keys services)).splitOn '.' = [] :: entries keys services := by
      refine splitOn_intercalate '.' (fun entry hentry hdot => ?_) (by simp)
      rcases mem_cons.1 hentry with rfl | hentry
      · cases hdot
      · exact absurd ((entries_chars hcrates hkeys entry hentry).2 '.' hdot) (by decide)
    rw [intercalate_cons_of_ne_nil hne, nil_append] at hsplit
    rw [hsplit, filter_cons, if_neg (by decide), filter_eq_self]
    intro entry hentry
    rw [Bool.not_eq_true', isEmpty_eq_false_iff]
    exact (entries_chars hcrates hkeys entry hentry).1
  have hrun : (entries keys services).foldlM
    (resolvePart crates reader (peerDid keys services url)) PeerDocument.empty =
      .ok doc₂ := by
    rw [entries, foldlM_append, hdoc₁, ok_bind, hdoc₂]
  refine ⟨⟨url, doc₂.verificationMethods, doc₂.authentication, doc₂.assertionMethod, doc₂.keyAgreement,
    doc₂.capabilityDelegation, doc₂.capabilityInvocation, doc₂.services,
    [("@context", .arr [.str "https://www.w3.org/ns/did/v1.1"])]⟩, ?_, doc₂, hresolved₂, rfl, rfl, rfl, rfl, rfl,
      rfl, rfl⟩
  · show resolvePeer2 crates reader (peerDid keys services url) (peerId keys services) = _
    unfold resolvePeer2
    rw [peerId_eq hne, stripPrefix_cons, getD_some]
    have hsame : '.' :: ['.'].intercalate (entries keys services) = ['.'] ++
      ['.'].intercalate (entries keys services) := rfl
    dsimp only
    rw [hsame, hparts, hrun]
    rfl

theorem forall₂_iff_of_forall₂ {β : Type} {R S : α → β → Prop} {P : β → Prop} {as : List α} {bs : List β}
    (h : Forall₂ R as bs) (hS : ∀ a b, R a b → (S a b ↔ P b)) : Forall₂ S as bs ↔ ∀ b ∈ bs, P b := by
  induction h with
  | nil => exact iff_of_true .nil (forall_mem_nil _)
  | cons hab _ ih => rw [forall₂_cons, forall_mem_cons, hS _ _ hab, ih]

theorem served_iff {served : List (Service Url)}
    (h : Forall₂ (fun s entry => entry.1.received.toDidService crates did.toText entry.2 = .ok s) served
    services.zipIdx) : Forall₂ (ServiceOf crates did) served services.zipIdx ↔ ∀ service ∈ services,
    service.endpoint.NoShortLists := by
  have hentries : Forall₂ (ServiceOf crates did) served services.zipIdx ↔
      ∀ entry ∈ services.zipIdx, entry.1.endpoint.NoShortLists :=
    forall₂_iff_of_forall₂ h fun s entry => serviceOf_iff
  have hfst := zipIdx_map_fst 0 services
  rw [hentries]
  constructor
  · intro h service hservice
    rw [← hfst] at hservice
    obtain ⟨entry, hentry, rfl⟩ := mem_map.1 hservice
    exact h entry hentry
  · exact fun h entry hentry => h entry.1 (hfst ▸ mem_map_of_mem hentry)

theorem entries_ne_nil_iff : entries keys services ≠ [] ↔ keys ≠ [] ∨ services ≠ [] := by
  rw [entries, ne_eq, append_eq_nil_iff, map_eq_nil_iff, map_eq_nil_iff, not_and_or]

theorem Agrees.only_if (hcrates : crates.Documented) (hkeys : ∀ key ∈ keys, KeyGiven crates key)
    (hreader : ∀ service ∈ services, reader.ReadsBack service)
    (hservices : ∀ service ∈ services, ServiceValid crates (peerText keys services) service)
    {resolveKey : DID Url → Except DIDError (Document Url)} {doc : Document Url}
    (hgenerate : generatePeer crates generate keys (some services) = .ok (did, created))
    (hresolve : did.resolve crates reader resolveKey = .ok doc) (hagrees : Agrees crates did keys services doc) :
    (keys ≠ [] ∨ services ≠ []) ∧ ∀ service ∈ services, service.endpoint.NoShortLists := by
  obtain ⟨hdid, -⟩ := (generatePeer_eq_ok_iff hkeys).1 hgenerate
  by_cases hne : entries keys services = []
  · exfalso
    have hid : peerId keys services = peerId [] [] := by
      rw [peerId, hne]
      rfl
    rw [hid] at hdid
    exact fromStr_peer_empty hdid
  · obtain ⟨url, hread⟩ := fromStr_peer hcrates hkeys hne
    cases hread.symm.trans hdid
    obtain ⟨doc', hresolve', parts, hparts, -, -, -, -, -, -, hservice⟩ :=
      resolve_peer hcrates hkeys hreader hservices hne resolveKey url
    cases hresolve'.symm.trans hresolve
    exact ⟨entries_ne_nil_iff.1 hne, (served_iff hparts.served).1 (hservice ▸ hagrees.served)⟩

/-- Making a peer DID and resolving it gives back the keys and the services exactly where there is a key or a service,
and no endpoint in the short form has an accept list or routing keys. -/
theorem peer_agrees_iff (hcrates : crates.Documented) (hkeys : ∀ key ∈ keys, KeyGiven crates key)
    (hreader : ∀ service ∈ services, reader.ReadsBack service)
    (hservices : ∀ service ∈ services, ServiceValid crates (peerText keys services) service)
    (generate : PeerKeyType → Except DIDError PeerCreatedKey)
      (resolveKey : DID Url → Except DIDError (Document Url)) :
    (∃ did created doc, generatePeer crates generate keys (some services) = .ok (did, created) ∧
        did.resolve crates reader resolveKey = .ok doc ∧ Agrees crates did keys services doc) ↔
      (keys ≠ [] ∨ services ≠ []) ∧ ∀ service ∈ services, service.endpoint.NoShortLists := by
  constructor
  · rintro ⟨did, created, doc, hgenerate, hresolve, hagrees⟩
    exact hagrees.only_if hcrates hkeys hreader hservices hgenerate hresolve
  · rintro ⟨hsome, hlists⟩
    have hne := entries_ne_nil_iff.2 hsome
    obtain ⟨url, hread⟩ := fromStr_peer hcrates hkeys hne
    obtain ⟨doc, hresolve, parts, hparts, hvm, hauth, hassert, hagree, hdeleg, hinvoke, hservice⟩ :=
      resolve_peer hcrates hkeys hreader hservices hne resolveKey url
    refine ⟨_, [], doc, (generatePeer_eq_ok_iff hkeys).2 ⟨hread, rfl⟩, hresolve, ?_⟩
    exact ⟨hvm ▸ hparts.methods, hauth.trans hparts.authentication, hassert.trans hparts.assertionMethod,
      hagree.trans hparts.keyAgreement, hdeleg.trans hparts.delegation, hinvoke.trans hparts.invocation,
      hservice ▸ (served_iff hparts.served).2 hlists⟩

end Agreement

/-! ## Examples -/

/-- URLs as their texts; one base58 text, that of `hello`; one-byte integers. -/
def helloDecoders : Decoders Text where
  parseUrl := .ok
  bs58Decode text := if text = "Cn8eVZg".toList then .ok [104, 101, 108, 108, 111] else .error "invalid character"
  varintDecode
    | byte :: rest => if byte < 128 then .ok (byte.toNat, rest) else .error "not enough bytes"
    | [] => .error "not enough bytes"

theorem helloDecoders_documented : helloDecoders.Documented := by
  refine ⟨fun s _ => ⟨s, rfl⟩, fun text bytes h => ?_⟩
  have htext : text = "Cn8eVZg".toList := by
    by_contra hne
    have hbad : helloDecoders.bs58Decode text = .error "invalid character" := if_neg hne
    rw [hbad] at h
    cases h
  rw [htext]
  exact all_eq_true.1 rfl

def helloKey : PeerCreateKey := ⟨.verification, none, some "zCn8eVZg".toList⟩

theorem helloKey_given : ∀ key ∈ [helloKey], KeyGiven helloDecoders key := by
  intro key hkey
  rw [mem_singleton.1 hkey]
  exact ⟨_, (104, [101, 108, 108, 111]), rfl, by decide +kernel⟩

/-- A JSON reader that knows one service. -/
def readerOf (service : PeerService) : JsonReader :=
  ⟨fun bytes => if bytes = Text.utf8 service.toJson.toText then some service.toJson else none⟩

theorem readerOf_readsBack (service : PeerService) : ∀ s ∈ [service], (readerOf service).ReadsBack s := by
  intro s hs
  rw [mem_singleton.1 hs]
  exact if_pos rfl

theorem serviceValid_plain (did : Text) (service : PeerService) : ServiceValid helloDecoders did service :=
  ⟨fun _ _ => ⟨_, rfl⟩, fun _ _ => ⟨_, rfl⟩⟩

def plainService : PeerService := ⟨"dm", .uri "https://example.com/didcomm", none⟩

/-- A key and a service with a plain endpoint come back. -/
theorem plain_peer_agrees :
    ∃ did created doc, generatePeer helloDecoders (fun _ => .error .missingPrefix) [helloKey] (some [plainService]) =
        .ok (did, created) ∧
      did.resolve helloDecoders (readerOf plainService) (fun _ => .error .missingPrefix) = .ok doc ∧
      Agrees helloDecoders did [helloKey] [plainService] doc := by
  refine (peer_agrees_iff helloDecoders_documented helloKey_given (readerOf_readsBack plainService)
    (fun s _ => serviceValid_plain _ s) _ _).2 ⟨.inl nofun, fun service hservice => ?_⟩
  rw [mem_singleton.1 hservice]
  trivial

def shortService : PeerService := ⟨"dm", .short (.one ⟨"https://example.com/didcomm", ["didcomm/v2"], []⟩), none⟩

/-- The accept list of a short endpoint does not come back. -/
theorem short_accept_lost :
    ¬∃ did created doc, generatePeer helloDecoders (fun _ => .error .missingPrefix) [helloKey]
      (some [shortService]) =
        .ok (did, created) ∧
      did.resolve helloDecoders (readerOf shortService) (fun _ => .error .missingPrefix) = .ok doc ∧
      Agrees helloDecoders did [helloKey] [shortService] doc := by
  rintro ⟨did, created, doc, hgenerate, hresolve, hagrees⟩
  have honly := hagrees.only_if helloDecoders_documented helloKey_given (readerOf_readsBack shortService)
    (fun s _ => serviceValid_plain _ s) hgenerate hresolve
  have hlists := honly.2 shortService mem_cons_self _ mem_cons_self
  exact absurd hlists.1 nofun

end AffinidiTdk.Did
