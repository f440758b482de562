/-
Forwards to another mediator: what the TSP path and the DIDComm path put in the forward queue, and what the forwarding
processor posts of it. The queue holds texts; the processor decodes one where its first two characters and its first
byte say TSP, and posts every other text as DIDComm.
-/
import AffinidiTdk.Lib.Base64
import AffinidiTdk.Routing.ForwardSender
import AffinidiTdk.Tsp.Ingress

namespace AffinidiTdk.Routing

open List Base64
open Acl Store Didcomm Program

/-! ## The processor -/

/-- The bytes of a queued TSP message, `none` for every other text. -/
def decodeTspForward (message : String) : Option (List UInt8) :=
  if !(['-', 'E'].isPrefixOf message.toList) then none
  else (Base64.decode message.toList).filter fun bytes => bytes.head? == some 0xF8

/-- The request a REST forward makes. -/
structure RestPost where
  inboundUrl : String
  contentType : String
  body : List UInt8
  deriving DecidableEq

def deliverViaRest (endpointUrl : String) (msg : ForwardQueueEntry) : RestPost :=
  let inboundUrl := if endpointUrl.toList.getLast? = some '/' then endpointUrl ++ "inbound" else endpointUrl ++
    "/inbound"
  match decodeTspForward msg.message with
  | some qb2 => ⟨inboundUrl, "application/tsp", qb2⟩
  | none => ⟨inboundUrl, "application/didcomm-encrypted+json", Text.utf8 msg.message⟩

/-! ## The TSP path -/

/-- A relay as the TSP path sees it: the endpoints of a resolved next hop, and which of them are its own. -/
structure TspRelay where
  resolveTspVid : String → Except MediatorError (List String)
  tspEndpointIsSelf : String → Bool
  digest : String → String
  unixMillis : ℕ
  unixSecs : ℕ
  messageExpirySeconds : ℕ
  forwardTaskQueue : ℕ

def tspProblem (sessionId : String) (code : ℕ) (codeStr message : String) (status : ℕ) : MediatorError :=
  .problem code sessionId none .error .protocol codeStr message [] status

section

variable (relay : TspRelay) (sessionId next fromVid : String) (bytes : List UInt8)

def tspForwardEntry (endpointUrl : String) : ForwardQueueEntry :=
  { message := String.ofList (Base64.encode bytes)
    toDidHash := relay.digest next
    fromDidHash := relay.digest fromVid
    fromDid := fromVid
    toDid := next
    endpointUrl
    receivedAtMs := relay.unixMillis
    delayMilli := 0
    expiresAt := relay.unixSecs + relay.messageExpirySeconds
    retryCount := 0
    hopCount := 1 }

/-- Queues the bytes for the first endpoint of the next hop, unless that is this mediator. -/
def forwardTspRemote : Routine Unit := do
  let endpoints ← lift (relay.resolveTspVid next)
  match endpoints with
  | [] => fail (tspProblem sessionId 58 "message.tsp.no_endpoint"
      s!"next hop {next} publishes no TSP transport endpoint" 404)
  | endpointUrl :: _ =>
    if relay.tspEndpointIsSelf endpointUrl then
      fail (tspProblem sessionId 94 "protocol.forwarding.loop_detected"
        s!"TSP next hop {next} resolves back to this mediator" 508)
    else do
      let _ ← performOr
        (fun e => tspProblem sessionId 90 "message.tsp.forward.enqueue"
          s!"couldn't enqueue TSP message for remote forwarding: {e.display}" 503)
        (.forwardQueueEnqueue (tspForwardEntry relay next fromVid bytes endpointUrl) relay.forwardTaskQueue)

end

/-! ## What is asked for -/

/-- The protocol of a carried message. -/
inductive Carried
  | tsp
  | didcomm

def Carried.contentType : Carried → String
  | tsp => "application/tsp"
  | didcomm => "application/didcomm-encrypted+json"

/-- The entry is posted with the protocol's content type and just these bytes. -/
def Posts (carried : Carried) (payload : List UInt8) (entry : ForwardQueueEntry) : Prop :=
  (deliverViaRest entry.endpointUrl entry).contentType = carried.contentType ∧
    (deliverViaRest entry.endpointUrl entry).body = payload

/-- A call that queues an entry queues one with the property. -/
def Queues (ok : ForwardQueueEntry → Prop) : (β : Type) → StoreCall β → Prop
  | _, .forwardQueueEnqueue entry _ => ok entry
  | _, _ => True

/-- The short count code of an envelope: twelve bits that are the characters `-E`. -/
def ShortCode : List UInt8 → Prop
  | a :: b :: _ => a = 0xF8 ∧ b.toNat / 16 = 4
  | _ => False

/-! ## Texts of bytes -/

theorem length_le_encode : (bytes : List UInt8) → bytes.length ≤ (encode bytes).length
  | [] => le_rfl
  | [a] => by simp [encode, encodeGroup]
  | [a, b] => by simp [encode, encodeGroup]
  | a :: b :: c :: rest => by
    have hrest := length_le_encode rest
    simp only [encode, encodeGroup, length_append, length_cons, length_nil]
    omega

theorem length_lt_encode {bytes : List UInt8} (h : bytes ≠ []) : bytes.length < (encode bytes).length := by
  match bytes, h with
  | [a], _ => simp [encode, encodeGroup]
  | [a, b], _ => simp [encode, encodeGroup]
  | a :: b :: c :: rest, _ =>
    have hrest := length_le_encode rest
    simp only [encode, encodeGroup, length_append, length_cons, length_nil]
    omega

theorem length_le_utf8 (text : List Char) : text.length ≤ (Text.utf8 (String.ofList text)).length := by
  have hsize : text.length ≤ text.utf8Encode.size := by
    induction text with
    | nil => exact Nat.zero_le _
    | cons c text ih =>
      have hchar : [c].utf8Encode.size = c.utf8Size := by
        rw [utf8Encode_singleton, size_toByteArray, String.length_utf8EncodeChar]
      have hpos := c.utf8Size_pos
      rw [utf8Encode_cons, ByteArray.size_append, length_cons, hchar]
      omega
  rw [Text.utf8, Array.length_toList]
  show _ ≤ (String.ofList text).toByteArray.size
  rw [String.toByteArray_ofList]
  exact hsize

theorem utf8_encode_eq_iff (bytes : List UInt8) :
    Text.utf8 (String.ofList (encode bytes)) = bytes ↔ bytes = [] := by
  constructor
  · intro h
    by_contra hne
    have hlonger := length_lt_encode hne
    have htext := length_le_utf8 (encode bytes)
    rw [h] at htext
    omega
  · rintro rfl
    rfl

theorem encode_head (a : UInt8) (rest : List UInt8) : ∃ tail, encode (a :: rest) = char (a.toNat / 4)
    :: char (a.toNat % 4 * 16 + ((rest.head?.map UInt8.toNat).getD 0) / 16) :: tail := by
  have ha := a.toNat_lt
  have hgroup : ∀ b c : UInt8, ∃ y z, encodeGroup (word a b c) =
      [char (a.toNat / 4), char (a.toNat % 4 * 16 + b.toNat / 16), y, z] := by
    intro b c
    have hb := b.toNat_lt
    have hc := c.toNat_lt
    have hfirst : (a.toNat * 2 ^ 16 + b.toNat * 2 ^ 8 + c.toNat) / 2 ^ 18 % 64 = a.toNat / 4 := by omega
    have hsecond : (a.toNat * 2 ^ 16 + b.toNat * 2 ^ 8 + c.toNat) / 2 ^ 12 % 64 =
      a.toNat % 4 * 16 + b.toNat / 16 := by
      omega
    unfold encodeGroup word
    rw [hfirst, hsecond]
    exact ⟨_, _, rfl⟩
  match rest with
  | [] =>
    obtain ⟨y, z, h⟩ := hgroup 0 0
    exact ⟨[], by rw [encode, h]; rfl⟩
  | [b] =>
    obtain ⟨y, z, h⟩ := hgroup b 0
    exact ⟨[y], by rw [encode, h]; rfl⟩
  | b :: c :: rest =>
    obtain ⟨y, z, h⟩ := hgroup b c
    exact ⟨y :: z :: encode rest, by rw [encode, h]; rfl⟩

theorem isPrefixOf_encode_iff (bytes : List UInt8) :
    ['-', 'E'].isPrefixOf (encode bytes) = true ↔ ShortCode bytes := by
  cases bytes with
  | nil => exact iff_of_false (by decide) (by simp [ShortCode])
  | cons a rest =>
    obtain ⟨tail, htail⟩ := encode_head a rest
    have ha := a.toNat_lt
    have hdash : '-' = char 62 := rfl
    have hE : 'E' = char 4 := rfl
    have hrest : ((rest.head?.map UInt8.toNat).getD 0) < 256 := by
      cases rest with
      | nil => exact Nat.zero_lt_succ _
      | cons b rest => exact b.toNat_lt
    rw [htail, isPrefixOf_cons_cons, isPrefixOf_cons_cons, isPrefixOf_nil_left, Bool.and_true, Bool.and_eq_true,
      beq_iff_eq, beq_iff_eq, hdash, hE, char_inj (by decide) (by omega),
        char_inj (by decide) (by omega)]
    cases rest with
    | nil =>
      refine iff_of_false ?_ (by simp [ShortCode])
      show ¬(62 = a.toNat / 4 ∧ 4 = a.toNat % 4 * 16 + 0 / 16)
      omega
    | cons b rest =>
      have hcode : a = 0xF8 ↔ a.toNat = 248 := by
        rw [← UInt8.toNat_inj]
        rfl
      show (62 = a.toNat / 4 ∧ 4 = a.toNat % 4 * 16 + b.toNat / 16) ↔ a = 0xF8 ∧ b.toNat / 16 = 4
      rw [hcode]
      omega

theorem decodeTspForward_encode (bytes : List UInt8) [Decidable (ShortCode bytes)] :
    decodeTspForward (String.ofList (encode bytes)) = if ShortCode bytes then some bytes else none := by
  have hstart := isPrefixOf_encode_iff bytes
  unfold decodeTspForward
  rw [String.toList_ofList, decode_encode]
  by_cases hshort : ShortCode bytes
  · rw [if_pos hshort, hstart.2 hshort]
    match bytes, hshort with
    | a :: b :: rest, hshort =>
      obtain ⟨rfl, -⟩ := hshort
      rfl
  · rw [if_neg hshort, Bool.eq_false_iff.2 fun h => hshort (hstart.1 h)]
    rfl

/-! ## Posted entries -/

theorem posts_encode_iff {entry : ForwardQueueEntry} {bytes : List UInt8}
    (hmessage : entry.message = String.ofList (encode bytes)) (carried : Carried) :
    Posts carried bytes entry ↔ (carried = .tsp ∧ ShortCode bytes) ∨ (carried = .didcomm ∧ bytes = []) := by
  classical
  unfold Posts deliverViaRest
  rw [hmessage, decodeTspForward_encode]
  by_cases hshort : ShortCode bytes
  · rw [if_pos hshort]
    have hne : bytes ≠ [] := by
      rintro rfl
      exact hshort
    cases carried with
    | tsp => simp [Carried.contentType, hshort]
    | didcomm => simp [Carried.contentType, hne]
  · rw [if_neg hshort]
    dsimp only
    rw [utf8_encode_eq_iff]
    cases carried with
    | tsp => simp [Carried.contentType, hshort]
    | didcomm => simp [Carried.contentType]

theorem posts_text {entry : ForwardQueueEntry} (h : ['-', 'E'].isPrefixOf entry.message.toList = false) :
    Posts .didcomm (Text.utf8 entry.message) entry := by
  unfold Posts deliverViaRest decodeTspForward
  rw [h]
  exact ⟨rfl, rfl⟩

/-! ## Both paths -/

variable {Priv Pub Kek : Type} {state : SharedData Priv Pub Kek} {session : Session} {msg : Message}

theorem storeForwardedMessage_queues (message recipient : String) (senderHash : Option String) (expires : Option ℕ)
    (ok : ForwardQueueEntry → Prop) :
    (storeForwardedMessage state message senderHash recipient expires).Only (Queues ok) := by
  unfold storeForwardedMessage
  exact (Only.attempt trivial).bind fun _ => trivial

theorem deliverForward_queues (hjson : ∀ text value, state.ring.codec.fromStr text = .ok value →
    ['-', 'E'].isPrefixOf text.toList = false) (hrewrap : ∀ data next hops text, state.rewrapForRelay data next
    hops = .ok text → ∃ value, state.ring.codec.fromStr text = .ok value) (next : String)
    (nextAcls : MediatorACLSet) (fromAccount : Account) (data : String) (delayMilli : ℤ) (expires : ℕ)
    (ephemeral : Bool) : (deliverForward state session msg next nextAcls fromAccount data delayMilli expires
    ephemeral).Only (Queues fun entry => relayMessage state msg data next = .ok entry.message ∧
    Posts .didcomm (Text.utf8 entry.message) entry) := by
  unfold deliverForward
  cases hnew : MetaEnvelope.new state.ring data with
  | error e => trivial
  | ok envelope =>
    -- the envelope was read, so the text is JSON
    have hdata : ∃ value, state.ring.codec.fromStr data = .ok value := by
      unfold MetaEnvelope.new at hnew
      cases hvalue : state.ring.codec.fromStr data with
      | error e =>
        rw [hvalue] at hnew
        cases hnew
      | ok value => exact ⟨value, rfl⟩
    simp only [Fallible.mapError_ok, lift_ok_bind]
    by_cases hanon : (envelope.fromDid.isNone && !nextAcls.getAnonReceive.1) = true
    · rw [if_pos hanon]
      trivial
    rw [if_neg hanon]
    by_cases hephemeral : ephemeral = true
    · rw [if_pos hephemeral]
      trivial
    rw [if_neg hephemeral]
    cases remoteNext state next with
    | none => exact storeForwardedMessage_queues _ _ _ _ _
    | some endpointUrl =>
      dsimp only
      by_cases hhops : hopCount msg ≥ state.config.forwarding.maxHops
      · rw [if_pos hhops]
        trivial
      rw [if_neg hhops]
      cases hmessage : relayMessage state msg data next with
      | error e => trivial
      | ok message =>
        have htext : ∃ value, state.ring.codec.fromStr message = .ok value := by
          unfold relayMessage at hmessage
          split at hmessage
          · exact Except.ok.inj hmessage ▸ hdata
          · exact hrewrap _ _ _ _ hmessage
        obtain ⟨value, hvalue⟩ := htext
        simp only [lift_ok_bind]
        exact (Only.performOr _ ⟨rfl, posts_text (hjson _ _ hvalue)⟩).bind fun _ => trivial

/-- **Remote forwarding** posts the bytes that the TSP path queues exactly where they are TSP with a short count
code, and every text that the DIDComm path queues. -/
theorem remoteForward_transparent_iff {relay : TspRelay} {sessionId next fromVid endpointUrl : String}
    {others : List String} (hresolved : relay.resolveTspVid next = .ok (endpointUrl :: others))
    (hother : relay.tspEndpointIsSelf endpointUrl = false) (bytes : List UInt8) (carried : Carried)
    (hjson : ∀ text value, state.ring.codec.fromStr text = .ok value → ['-', 'E'].isPrefixOf text.toList = false)
    (hrewrap : ∀ data next hops text, state.rewrapForRelay data next hops = .ok text →
      ∃ value, state.ring.codec.fromStr text = .ok value) :
    ((forwardTspRemote relay sessionId next fromVid bytes).Only (Queues (Posts carried bytes)) ↔
      (carried = .tsp ∧ ShortCode bytes) ∨ (carried = .didcomm ∧ bytes = [])) ∧
    ∀ session msg next nextAcls fromAccount data delayMilli expires ephemeral,
      (deliverForward state session msg next nextAcls fromAccount data delayMilli expires ephemeral).Only
        (Queues fun entry => relayMessage state msg data next = .ok entry.message ∧
          Posts .didcomm (Text.utf8 entry.message) entry) := by
  refine ⟨?_, fun session msg next nextAcls fromAccount data delayMilli expires ephemeral =>
    deliverForward_queues hjson hrewrap next nextAcls fromAccount data delayMilli expires ephemeral⟩
  have honly : (forwardTspRemote relay sessionId next fromVid bytes).Only (Queues (Posts carried bytes)) ↔
      Posts carried bytes (tspForwardEntry relay next fromVid bytes endpointUrl) := by
    unfold forwardTspRemote
    rw [hresolved]
    simp only [lift_ok_bind, hother]
    exact ⟨fun h => h.1, fun h => (Only.performOr _ h).bind fun _ => trivial⟩
  rw [honly]
  exact posts_encode_iff rfl carried

/-! ## Two payloads -/

/-- A relay for which every DID is served at one other place. -/
def plainRelay : TspRelay :=
    ⟨fun _ => .ok ["https://other.example"], fun _ => false, fun did => "h:" ++ did, 0, 0, 60, 10⟩

/-- A mediator that reads the two texts of a plain layer and packs nothing. -/
def blindState : SharedData String String (Agreement String) where
  config := ⟨"did:x:med", "h:did:x:med", ⟨default, true, true, false, false⟩, ⟨100, 100, 10, 100, 3600, 10⟩,
    PlainLayer.config⟩
  ring := PlainLayer.ring
  digest did := "h:" ++ did
  unixSecs := 0
  unixMillis := 0
  remoteEndpoint _ := none
  rewrapForRelay _ _ _ := .error (.internalError 47 "s" "no keys")
  packNotice _ _ := .ok "notice"

theorem remoteForward_short :
    (forwardTspRemote plainRelay "s" "did:x:bob" "did:x:ann" [0xF8, 0x40, 0x13, 1]).Only
      (Queues (Posts .tsp [0xF8, 0x40, 0x13, 1])) := by
  refine ((@remoteForward_transparent_iff _ _ _ blindState plainRelay "s" "did:x:bob" "did:x:ann" _ _ rfl rfl
    [0xF8, 0x40, 0x13, 1] .tsp ?_ ?_).1).2 (.inl ⟨rfl, rfl, by decide⟩)
  · intro text value hvalue
    change PlainLayer.codec.fromStr text = .ok value at hvalue
    simp only [PlainLayer.codec] at hvalue
    split_ifs at hvalue with hempty htext
    · subst hempty
      decide +kernel
    · subst htext
      decide +kernel
  · intro data next hops text hpacked
    cases hpacked

/-- A bridged DIDComm message, of two bytes, arrives as the three characters of its base64 text. -/
theorem remoteForward_bridged :
    deliverViaRest "https://other.example"
        (tspForwardEntry plainRelay "did:x:bob" "did:x:ann" (Text.utf8 "\x7b\x7d") "https://other.example") =
      ⟨"https://other.example/inbound", "application/didcomm-encrypted+json", Text.utf8 "e30"⟩ ∧
    ¬(forwardTspRemote plainRelay "s" "did:x:bob" "did:x:ann" (Text.utf8 "\x7b\x7d")).Only
      (Queues (Posts .didcomm (Text.utf8 "\x7b\x7d"))) := by
  have hposted : deliverViaRest "https://other.example"
      (tspForwardEntry plainRelay "did:x:bob" "did:x:ann" (Text.utf8 "\x7b\x7d") "https://other.example") =
      ⟨"https://other.example/inbound", "application/didcomm-encrypted+json", Text.utf8 "e30"⟩ := by decide +kernel
  refine ⟨hposted, fun honly => ?_⟩
  have hposts : Posts .didcomm (Text.utf8 "\x7b\x7d")
      (tspForwardEntry plainRelay "did:x:bob" "did:x:ann" (Text.utf8 "\x7b\x7d") "https://other.example") := honly.1
  have hbody := hposts.2
  change (deliverViaRest "https://other.example" (tspForwardEntry plainRelay _ _ _ _)).body = _ at hbody
  rw [hposted] at hbody
  exact absurd hbody (by decide +kernel)

end AffinidiTdk.Routing
