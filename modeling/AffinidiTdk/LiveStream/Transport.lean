/-
The loop of the SDK's socket task (`websockets/websocket.rs`) as far as it hands out messages: the commands of the
callers, what is done with an inbound text, and what a disconnect does with the requests that wait. A sender of a
one-shot channel is used once, so each step gives the answers it sends, next to the state after it; whether the
receiver is still there is not the loop's business.
-/
import AffinidiTdk.LiveStream.MessageCache

namespace AffinidiTdk.LiveStream

open List Option OrdMap
open Didcomm (Message)

/-- What a caller is given. -/
inductive WebSocketResponse (Metadata : Type)
  | messageReceived (message : Message) (metadata : Metadata)
  | packedMessageReceived (message : String)
  | disconnected

/-- The commands that touch the tables of waiting requests. -/
inductive WebSocketCommand (Sender : Type)
  | enableInboundChannel
  | disableInboundChannel
  | next (id : ℕ) (sender : Sender)
  | cancelNext (id : ℕ)
  | getMessage (id : String) (sender : Sender)
  | cancelGetMessage (id : String)
  deriving DecidableEq

/-- What is sent: an answer to one request, or a message on the direct channel. -/
inductive Outgoing (Metadata Sender : Type)
  | reply (sender : Sender) (response : WebSocketResponse Metadata)
  | direct (response : WebSocketResponse Metadata)

/-- The unpacked message in what is sent. -/
def Outgoing.message {Metadata Sender : Type} : Outgoing Metadata Sender → Option (Message × Metadata)
  | .reply _ (.messageReceived message metadata) => some (message, metadata)
  | .direct (.messageReceived message metadata) => some (message, metadata)
  | _ => none

/-- The state of the transport: the cache and the requests for a next message. -/
structure WebSocketTransport (Metadata Sender : Type) where
  webSocket : Bool := false
  inboundCache : MessageCache Metadata Sender
  directChannel : Bool := false
  nextRequests : OrdMap ℕ Sender := .empty
  nextRequestsList : List ℕ := []
  skipUnpackMessages : Bool := false

/-- The SDK calls of the loop: the sniffing of a TSP frame and the unpacking of a text. -/
structure Atm (Metadata : Type) where
  isTsp : String → Bool
  unpack : String → Except String (Message × Metadata)

namespace WebSocketTransport

variable {Metadata Sender : Type} (messageSize : UInt64) (atm : Atm Metadata)

def handleCommand (transport : WebSocketTransport Metadata Sender) :
    WebSocketCommand Sender → List (Outgoing Metadata Sender) × WebSocketTransport Metadata Sender
  | .enableInboundChannel => ([], { transport with directChannel := true })
  | .disableInboundChannel => ([], { transport with directChannel := false })
  | .next id sender =>
    match MessageCache.next messageSize transport.inboundCache with
    | (some (message, metadata), cache) =>
      ([.reply sender (.messageReceived message metadata)], { transport with inboundCache := cache })
    | (none, cache) =>
      ([], { transport with
        inboundCache := cache
        nextRequests := transport.nextRequests.insert id sender
        nextRequestsList := transport.nextRequestsList ++ [id] })
  | .cancelNext id =>
    ([], { transport with
      nextRequests := transport.nextRequests.erase id
      nextRequestsList := transport.nextRequestsList.filter fun x => x ≠ id })
  | .getMessage id sender =>
    match MessageCache.getOrAddWanted messageSize id sender transport.inboundCache with
    | (some (sender, message, metadata), cache) =>
      ([.reply sender (.messageReceived message metadata)], { transport with inboundCache := cache })
    | (none, cache) => ([], { transport with inboundCache := cache })
  | .cancelGetMessage _ => ([], transport)

/-- The first waiting `next` request, if its sender is there; its number leaves the list in any case. -/
def popNextRequest (transport : WebSocketTransport Metadata Sender) :
    Option Sender × WebSocketTransport Metadata Sender :=
  match transport.nextRequestsList with
  | [] => (none, transport)
  | nextRequest :: rest =>
    (transport.nextRequests.get? nextRequest, { transport with
      nextRequests := transport.nextRequests.erase nextRequest
      nextRequestsList := rest })

/-- A packed text goes to a `next` request or to the direct channel, else nowhere. -/
def forwardPacked (message : String) (transport : WebSocketTransport Metadata Sender) :
    List (Outgoing Metadata Sender) × WebSocketTransport Metadata Sender :=
  match transport.popNextRequest with
  | (some sender, transport) => ([.reply sender (.packedMessageReceived message)], transport)
  | (none, transport) =>
    if transport.directChannel then ([.direct (.packedMessageReceived message)], transport) else ([], transport)

/-- An unpacked message goes to the request that wants it, to a `next` request, to the direct channel, or into the
cache. -/
def dispatch (message : Message) (metadata : Metadata) (transport : WebSocketTransport Metadata Sender) :
    List (Outgoing Metadata Sender) × WebSocketTransport Metadata Sender :=
  match MessageCache.messageWanted message transport.inboundCache with
  | (some sender, cache) =>
    ([.reply sender (.messageReceived message metadata)], { transport with inboundCache := cache })
  | (none, cache) =>
    match popNextRequest { transport with inboundCache := cache } with
    | (some sender, transport) => ([.reply sender (.messageReceived message metadata)], transport)
    | (none, transport) =>
      if transport.directChannel then ([.direct (.messageReceived message metadata)], transport)
      else ([], { transport with
        inboundCache := MessageCache.insert messageSize message metadata transport.inboundCache })

def processInboundDidcommMessage (message : String) (transport : WebSocketTransport Metadata Sender) :
    List (Outgoing Metadata Sender) × WebSocketTransport Metadata Sender :=
  if transport.skipUnpackMessages || atm.isTsp message then forwardPacked message transport
  else
    match atm.unpack message with
    | .ok (message, metadata) => dispatch messageSize message metadata transport
    | .error _ => ([], transport)

/-- Every waiting request is told that the connection is lost. -/
def failPendingRequests (transport : WebSocketTransport Metadata Sender) :
    List (Outgoing Metadata Sender) × WebSocketTransport Metadata Sender :=
  let drained := MessageCache.drainWanted transport.inboundCache
  ((transport.nextRequests.values ++ drained.1).map fun sender => .reply sender .disconnected,
    { transport with
      inboundCache := drained.2
      nextRequests := .empty
      nextRequestsList := [] })

def disconnect (transport : WebSocketTransport Metadata Sender) :
    List (Outgoing Metadata Sender) × WebSocketTransport Metadata Sender :=
  failPendingRequests { transport with webSocket := false }

end WebSocketTransport

/-! ## Waiting requests -/

/-- `live_stream_next` with its request number, or `live_stream_get`. -/
inductive Request
  | next (txUuid : ℕ)
  | get (msgId : String)

def Request.command {Sender : Type} (sender : Sender) : Request → WebSocketCommand Sender
  | .next txUuid => .next txUuid sender
  | .get msgId => .getMessage msgId sender

theorem Request.command_eq_next {Sender : Type} {a c : Sender} {id : ℕ} {request : Request}
    (h : request.command a = .next id c) : a = c ∧ request = .next id := by
  cases request with
  | next txUuid =>
    cases h
    exact ⟨rfl, rfl⟩
  | get msgId => cases h

theorem Request.command_eq_getMessage {Sender : Type} {a c : Sender} {id : String} {request : Request}
    (h : request.command a = .getMessage id c) : a = c ∧ request = .get id := by
  cases request with
  | next txUuid => cases h
  | get msgId =>
    cases h
    exact ⟨rfl, rfl⟩

def Request.cancel {Sender : Type} : Request → WebSocketCommand Sender
  | .next txUuid => .cancelNext txUuid
  | .get msgId => .cancelGetMessage msgId

namespace WebSocketTransport

variable {Metadata Sender : Type} {messageSize : UInt64} {transport : WebSocketTransport Metadata Sender}

/-- The sender of a request is in the table that it will be taken from. -/
def Awaits (transport : WebSocketTransport Metadata Sender) (sender : Sender) : Request → Prop
  | .next txUuid => transport.nextRequests.get? txUuid = some sender ∧ txUuid ∈ transport.nextRequestsList
  | .get msgId => transport.inboundCache.wantedList.get? msgId = some sender

/-- The request that a message would be handed to. -/
def recipient (transport : WebSocketTransport Metadata Sender) (message : Message) : Option Sender :=
  (transport.inboundCache.wantedList.get? (transport.inboundCache.wantedKey message)).or
    (transport.nextRequestsList.head?.bind transport.nextRequests.get?)

/-- The cache holds the inbox, and no request waits for a cached message by its id. -/
structure Stores (transport : WebSocketTransport Metadata Sender) (inbox : List (Message × Metadata)) : Prop where
  listed : transport.inboundCache.Listed inbox
  apart : ∀ id sender, transport.inboundCache.wantedList.get? id = some sender →
    transport.inboundCache.messages.get? id = none

/-- What popping the list of `next` requests does. -/
structure Pops (transport : WebSocketTransport Metadata Sender)
    (r : Option Sender × WebSocketTransport Metadata Sender) : Prop where
  sender : r.1 = transport.nextRequestsList.head?.bind transport.nextRequests.get?
  cache : r.2.inboundCache = transport.inboundCache
  channel : r.2.directChannel = transport.directChannel
  awaits : ∀ sender request, transport.Awaits sender request → r.1 = some sender ∨ r.2.Awaits sender request

theorem pops (transport : WebSocketTransport Metadata Sender) : transport.Pops transport.popNextRequest := by
  unfold popNextRequest
  cases hlist : transport.nextRequestsList with
  | nil => exact ⟨by rw [hlist]; rfl, rfl, rfl, fun _ _ h => .inr h⟩
  | cons first rest =>
    refine ⟨by rw [hlist]; rfl, rfl, rfl, fun sender request h => ?_⟩
    cases request with
    | get msgId => exact .inr h
    | next txUuid =>
      obtain ⟨hsender, hmem⟩ := h
      rw [hlist] at hmem
      by_cases hfirst : txUuid = first
      · subst hfirst
        exact .inl hsender
      · right
        refine ⟨?_, (mem_cons.1 hmem).resolve_left hfirst⟩
        show (transport.nextRequests.erase first).get? txUuid = some sender
        rw [get?_erase, if_neg hfirst]
        exact hsender

/-! ## What a step of the loop does -/

/-- A step sends `outs` and leaves `inbox` in the cache, and no request of a live sender is forgotten unanswered. -/
structure Outcome (live : Sender → Prop) (transport : WebSocketTransport Metadata Sender)
    (r : List (Outgoing Metadata Sender) × WebSocketTransport Metadata Sender)
      (outs : List (Outgoing Metadata Sender))
    (inbox : List (Message × Metadata)) : Prop where
  sent : r.1 = outs
  stores : r.2.Stores inbox
  awaits : ∀ sender request, live sender → transport.Awaits sender request →
    (∃ response, .reply sender response ∈ outs) ∨ r.2.Awaits sender request

variable {live : Sender → Prop} {inbox : List (Message × Metadata)}

theorem not_wanted {cache : MessageCache Metadata Sender} {message : Message}
    (h : cache.wantedList.get? (cache.wantedKey message) = none) : cache.wantedList.get? message.id = none := by
  have hfilter : ∀ o : Option String, ∀ key, o.filter (fun id => (cache.wantedList.get? id).isSome) = some key →
      (cache.wantedList.get? key).isSome := by
    intro o key hkey
    simpa using (filter_eq_some_iff.1 hkey).2
  unfold MessageCache.wantedKey at h
  simp only at h
  cases hthid : message.thid.filter fun id => (cache.wantedList.get? id).isSome with
  | some key =>
    rw [hthid] at h
    have hsome := hfilter _ key hthid
    rw [show cache.wantedList.get? key = none from h] at hsome
    cases hsome
  | none =>
    cases hpthid : message.pthid.filter fun id => (cache.wantedList.get? id).isSome with
    | some key =>
      rw [hthid, hpthid] at h
      have hsome := hfilter _ key hpthid
      rw [show cache.wantedList.get? key = none from h] at hsome
      cases hsome
    | none =>
      rw [hthid, hpthid] at h
      exact h

theorem awaits_eraseWanted {key : String} {sender : Sender} {request : Request}
    (h : transport.Awaits sender request) :
    transport.inboundCache.wantedList.get? key = some sender ∨
    WebSocketTransport.Awaits { transport with
      inboundCache := { transport.inboundCache with wantedList := transport.inboundCache.wantedList.erase key } }
      sender request := by
  cases request with
  | next txUuid => exact .inr h
  | get msgId =>
    by_cases hkey : msgId = key
    · subst hkey
      exact .inl h
    · right
      show (transport.inboundCache.wantedList.erase key).get? msgId = some sender
      rw [get?_erase, if_neg hkey]
      exact h

theorem Stores.eraseWanted (h : transport.Stores inbox) (key : String) :
    Stores { transport with
      inboundCache := { transport.inboundCache with wantedList := transport.inboundCache.wantedList.erase key } }
      inbox := by
  refine ⟨h.listed.withWanted _ _, fun id sender hwanted => ?_⟩
  replace hwanted : (transport.inboundCache.wantedList.erase key).get? id = some sender := hwanted
  rw [get?_erase] at hwanted
  by_cases hid : id = key
  · rw [if_pos hid] at hwanted
    cases hwanted
  · rw [if_neg hid] at hwanted
    exact h.apart id sender hwanted

theorem Stores.of_cache {transport' : WebSocketTransport Metadata Sender} (h : transport.Stores inbox)
    (hcache : transport'.inboundCache = transport.inboundCache) : transport'.Stores inbox :=
  ⟨hcache ▸ h.listed, by rw [hcache]; exact h.apart⟩

theorem dispatch_of_recipient (h : transport.Stores inbox) {message : Message} (metadata : Metadata)
    {sender : Sender}
    (hrecipient : transport.recipient message = some sender) :
    transport.Outcome live (dispatch messageSize message metadata transport)
      [.reply sender (.messageReceived message metadata)] inbox := by
  unfold recipient at hrecipient
  unfold dispatch MessageCache.messageWanted
  simp only
  cases hwanted : transport.inboundCache.wantedList.get? (transport.inboundCache.wantedKey message) with
  | some wanting =>
    rw [hwanted] at hrecipient
    obtain rfl : wanting = sender := some_inj.1 hrecipient
    refine ⟨rfl, h.eraseWanted _, fun other request _ hawaits => ?_⟩
    rcases awaits_eraseWanted hawaits with hother | hother
    · rw [hwanted, some_inj] at hother
      subst hother
      exact .inl ⟨_, mem_singleton_self _⟩
    · exact .inr hother
  | none =>
    rw [hwanted, none_or] at hrecipient
    simp only
    have hstores := h.eraseWanted (transport.inboundCache.wantedKey message)
    have hpops := pops { transport with inboundCache := { transport.inboundCache with
      wantedList := transport.inboundCache.wantedList.erase (transport.inboundCache.wantedKey message) } }
    revert hpops
    generalize popNextRequest _ = popped
    obtain ⟨first, transport'⟩ := popped
    intro hpops
    have hfirst : first = some sender := hpops.sender.trans hrecipient
    subst hfirst
    refine ⟨rfl, hstores.of_cache hpops.cache, fun other request _ hawaits => ?_⟩
    rcases awaits_eraseWanted hawaits with hother | hother
    · rw [hwanted] at hother
      cases hother
    · rcases hpops.awaits other request hother with hsender | hkept
      · obtain rfl : sender = other := some_inj.1 hsender
        exact .inl ⟨_, mem_singleton_self _⟩
      · exact .inr hkept

theorem dispatch_of_none (h : transport.Stores inbox) {message : Message} (metadata : Metadata)
    (hrecipient : transport.recipient message = none) :
    (transport.directChannel = true → transport.Outcome live (dispatch messageSize message metadata transport)
      [.direct (.messageReceived message metadata)] inbox) ∧
    (transport.directChannel = false → transport.inboundCache.messages.get? message.id = none →
      transport.Outcome live (dispatch messageSize message metadata transport) []
        (inbox ++ [(message, metadata)])) := by
  unfold recipient at hrecipient
  unfold dispatch MessageCache.messageWanted
  simp only
  obtain ⟨hwanted, hnext⟩ := or_eq_none_iff.1 hrecipient
  have hstores := h.eraseWanted (transport.inboundCache.wantedKey message)
  have hpops := pops { transport with inboundCache := { transport.inboundCache with
    wantedList := transport.inboundCache.wantedList.erase (transport.inboundCache.wantedKey message) } }
  rw [hwanted]
  simp only
  revert hpops
  generalize popNextRequest _ = popped
  obtain ⟨first, transport'⟩ := popped
  intro hpops
  have hfirst : first = none := hpops.sender.trans hnext
  subst hfirst
  have hchannel : transport'.directChannel = transport.directChannel := hpops.channel
  have hawaits : ∀ other request, transport.Awaits other request → transport'.Awaits other request := by
    intro other request hawaits
    rcases awaits_eraseWanted hawaits with hother | hother
    · rw [hwanted] at hother
      cases hother
    · exact (hpops.awaits other request hother).resolve_left nofun
  constructor
  · intro hdirect
    simp only [hchannel, hdirect, if_true]
    exact ⟨rfl, hstores.of_cache hpops.cache, fun other request _ ho => .inr (hawaits other request ho)⟩
  · intro hdirect hnew
    simp only [hchannel, hdirect, Bool.false_eq_true, if_false]
    have hstores' : transport'.Stores _ := hstores.of_cache hpops.cache
    have hnew' : transport'.inboundCache.messages.get? message.id = none := by
      rw [hpops.cache]
      exact hnew
    obtain ⟨thids, full, heq⟩ := @MessageCache.insert_eq _ _ messageSize message metadata transport'.inboundCache
    refine ⟨rfl, ⟨hstores'.listed.insert metadata hnew', fun id sender hsender => ?_⟩,
      fun other request _ ho => .inr ?_⟩
    · replace hsender : (MessageCache.insert messageSize message metadata
        transport'.inboundCache).wantedList.get? id =
        some sender := hsender
      show (MessageCache.insert messageSize message metadata transport'.inboundCache).messages.get? id = none
      rw [heq] at hsender ⊢
      show (transport'.inboundCache.messages.insert message.id (message, metadata)).get? id = none
      rw [get?_insert, if_neg]
      · exact hstores'.apart id sender hsender
      · rintro rfl
        -- nobody waits for the message by its id
        replace hsender : transport'.inboundCache.wantedList.get? message.id = some sender := hsender
        rw [hpops.cache] at hsender
        replace hsender : (transport.inboundCache.wantedList.erase _).get? message.id = some sender := hsender
        rw [get?_erase, not_wanted hwanted] at hsender
        simp at hsender
    · have hkept := hawaits other request ho
      cases request with
      | next txUuid => exact hkept
      | get msgId =>
        show (MessageCache.insert messageSize message metadata transport'.inboundCache).wantedList.get? msgId =
          some other
        rw [heq]
        exact hkept

/-- What `next` and `getOrAddWanted` leave of the wanted list, once nobody waits for a cached message. -/
theorem Stores.get?_wanted_remove (h : transport.Stores inbox) {entry : Message × Metadata}
    (hentry : transport.inboundCache.messages.get? entry.1.id = some entry) (key : String) :
    ((transport.inboundCache.wantedList.erase entry.1.id).get? key) =
      transport.inboundCache.wantedList.get? key := by
  rw [get?_erase]
  by_cases hkey : key = entry.1.id
  · rw [if_pos hkey, hkey]
    cases hwanted : transport.inboundCache.wantedList.get? entry.1.id with
    | none => rfl
    | some sender =>
      rw [h.apart _ sender hwanted] at hentry
      cases hentry
  · rw [if_neg hkey]

theorem Stores.handOut (h : transport.Stores inbox) {entry : Message × Metadata} {cache : MessageCache Metadata Sender}
    (hlisted : cache.Listed (inbox.filter fun other => !decide (entry.1.id = other.1.id)))
    (hwanted : ∀ key, cache.wantedList.get? key = transport.inboundCache.wantedList.get? key) (sender : Sender) :
    transport.Outcome live ([.reply sender (.messageReceived entry.1 entry.2)],
      { transport with inboundCache := cache }) [.reply sender (.messageReceived entry.1 entry.2)]
      (inbox.filter fun other => !decide (entry.1.id = other.1.id)) := by
  refine ⟨rfl, ⟨hlisted, fun id waiting hid => ?_⟩, fun other request _ hother => .inr ?_⟩
  · replace hid : cache.wantedList.get? id = some waiting := hid
    rw [hwanted] at hid
    have hnone := h.apart id waiting hid
    show cache.messages.get? id = none
    cases hcached : cache.messages.get? id with
    | none => rfl
    | some other =>
      obtain ⟨hmem, hid'⟩ := (hlisted.cached id other).1 hcached
      rw [(h.listed.cached id other).2 ⟨mem_of_mem_filter hmem, hid'⟩] at hnone
      cases hnone
  · cases request with
    | next txUuid => exact hother
    | get msgId =>
      show cache.wantedList.get? msgId = some other
      rw [hwanted]
      exact hother

theorem handleCommand_next_of_cons {entry : Message × Metadata} {rest : List (Message × Metadata)}
    (h : transport.Stores (entry :: rest)) (id : ℕ) (sender : Sender) :
    transport.Outcome live (handleCommand messageSize transport (.next id sender))
      [.reply sender (.messageReceived entry.1 entry.2)] rest := by
  have hnodup := nodup_cons.1 h.listed.nodup
  have hentry := (h.listed.cached entry.1.id entry).2 ⟨mem_cons_self, rfl⟩
  have hnext : MessageCache.next messageSize transport.inboundCache =
      (some entry, (MessageCache.remove messageSize entry.1.id transport.inboundCache).2) := by
    rw [MessageCache.next_eq_remove h.listed.ordered hnodup.1]
    exact Prod.ext (by rw [MessageCache.remove_present hentry]) rfl
  have hrest : ((entry :: rest).filter fun other => !decide (entry.1.id = other.1.id)) = rest := by
    rw [filter_cons_of_neg (by simp), filter_eq_self.2]
    intro other hother
    have hne : entry.1.id ≠ other.1.id := fun heq => hnodup.1 (mem_map.2 ⟨other, hother, heq.symm⟩)
    simpa using hne
  have hout := @Stores.handOut _ _ _ live _ h entry
    (MessageCache.remove messageSize entry.1.id transport.inboundCache).2 (h.listed.remove hentry) (fun key => by
      rw [MessageCache.remove_present hentry, MessageCache.resetFull_eq]
      exact h.get?_wanted_remove hentry key) sender
  rw [hrest] at hout
  unfold handleCommand
  simp only [hnext]
  exact hout

theorem handleCommand_next_of_nil (h : transport.Stores []) {id : ℕ} {sender : Sender}
    (hplace : ∀ other, transport.nextRequests.get? id = some other → ¬ live other) :
    transport.Outcome live (handleCommand messageSize transport (.next id sender)) [] [] ∧
    (handleCommand messageSize transport (.next id sender)).2.Awaits sender (.next id) := by
  have hnext : MessageCache.next messageSize transport.inboundCache =
      (none, { transport.inboundCache with nextFlag := true }) := by
    unfold MessageCache.next
    simp only [h.listed.ordered, map_nil]
  unfold handleCommand
  simp only [hnext]
  refine ⟨⟨rfl, ⟨h.listed.withWanted _ _, h.apart⟩, fun other request hlive hother => .inr ?_⟩, ?_, ?_⟩
  · cases request with
    | get msgId => exact hother
    | next txUuid =>
      obtain ⟨hsender, hmem⟩ := hother
      refine ⟨?_, mem_append_left _ hmem⟩
      show (transport.nextRequests.insert id sender).get? txUuid = some other
      rw [get?_insert, if_neg]
      · exact hsender
      · rintro rfl
        exact hplace other hsender hlive
  · show (transport.nextRequests.insert id sender).get? id = some sender
    rw [get?_insert, if_pos rfl]
  · exact mem_append_right _ (mem_singleton_self id)

section

variable (h : transport.Stores inbox)
include h

theorem handleCommand_cancelNext {id : ℕ}
    (hplace : ∀ other, transport.nextRequests.get? id = some other → ¬ live other) :
    transport.Outcome live (handleCommand messageSize transport (.cancelNext id)) [] inbox := by
  refine ⟨rfl, ⟨h.listed, h.apart⟩, fun other request hlive hother => .inr ?_⟩
  cases request with
  | get msgId => exact hother
  | next txUuid =>
    obtain ⟨hsender, hmem⟩ := hother
    have hne : txUuid ≠ id := by
      rintro rfl
      exact hplace other hsender hlive
    constructor
    · show (transport.nextRequests.erase id).get? txUuid = some other
      rw [get?_erase, if_neg hne]
      exact hsender
    · exact mem_filter.2 ⟨hmem, decide_eq_true hne⟩

theorem handleCommand_getMessage_of_found {id : String} (sender : Sender) {entry : Message × Metadata}
    (hfind : transport.inboundCache.find id = some entry) :
    transport.Outcome live (handleCommand messageSize transport (.getMessage id sender))
    [.reply sender (.messageReceived entry.1 entry.2)]
    (inbox.filter fun other => !decide (entry.1.id = other.1.id)) := by
  have hentry := h.listed.find hfind
  unfold handleCommand
  simp only [h.listed.getOrAddWanted_of_found sender hfind]
  refine h.handOut ((h.listed.remove hentry).withWanted _ _) (fun key => ?_) sender
  rw [MessageCache.remove_present hentry, MessageCache.resetFull_eq]
  show ((transport.inboundCache.wantedList.erase entry.1.id).erase entry.1.id).get? key = _
  rw [get?_erase, h.get?_wanted_remove hentry]
  by_cases hkey : key = entry.1.id
  · rw [if_pos hkey, hkey]
    have hgone := h.get?_wanted_remove hentry entry.1.id
    rwa [get?_erase, if_pos rfl] at hgone
  · rw [if_neg hkey]

theorem handleCommand_getMessage_of_not_found {id : String} {sender : Sender}
    (hfind : transport.inboundCache.find id = none)
    (hplace : ∀ other, transport.inboundCache.wantedList.get? id = some other → ¬ live other) :
    transport.Outcome live (handleCommand messageSize transport (.getMessage id sender)) [] inbox ∧
    (handleCommand messageSize transport (.getMessage id sender)).2.Awaits sender (.get id) := by
  have hnone : transport.inboundCache.messages.get? id = none := by
    unfold MessageCache.find at hfind
    cases hmsg : transport.inboundCache.messages.get? id with
    | none => rfl
    | some entry => simp [hmsg] at hfind
  unfold handleCommand
  simp only [MessageCache.getOrAddWanted_of_not_found hfind]
  refine ⟨⟨rfl, ⟨h.listed.withWanted _ _, fun key other hother => ?_⟩,
    fun other request hlive hother => .inr ?_⟩, ?_⟩
  · replace hother : (transport.inboundCache.wantedList.insert id sender).get? key = some other := hother
    rw [get?_insert] at hother
    by_cases hkey : key = id
    · rw [hkey]
      exact hnone
    · rw [if_neg hkey] at hother
      exact h.apart key other hother
  · cases request with
    | next txUuid => exact hother
    | get msgId =>
      show (transport.inboundCache.wantedList.insert id sender).get? msgId = some other
      rw [get?_insert, if_neg]
      · exact hother
      · rintro rfl
        exact hplace other hother hlive
  · show (transport.inboundCache.wantedList.insert id sender).get? id = some sender
    rw [get?_insert, if_pos rfl]

theorem forwardPacked_outcome (text : String) : ∃ outs, transport.Outcome live (forwardPacked text transport) outs
    inbox ∧ ∀ out ∈ outs, out.message = none := by
  unfold forwardPacked
  have hpops := transport.pops
  revert hpops
  generalize transport.popNextRequest = popped
  obtain ⟨first, transport'⟩ := popped
  intro hpops
  have hstores := h.of_cache hpops.cache
  cases first with
  | some sender =>
    refine ⟨_, ⟨rfl, hstores, fun other request _ hother => ?_⟩, fun out hout => ?_⟩
    · rcases hpops.awaits other request hother with hsender | hkept
      · obtain rfl : sender = other := some_inj.1 hsender
        exact .inl ⟨_, mem_singleton_self _⟩
      · exact .inr hkept
    · obtain rfl := mem_singleton.1 hout
      rfl
  | none =>
    have hawaits : ∀ other request, transport.Awaits other request → transport'.Awaits other request :=
      fun other request hother => (hpops.awaits other request hother).resolve_left nofun
    simp only
    cases transport'.directChannel with
    | true =>
      refine ⟨_, ⟨rfl, hstores, fun other request _ hother => .inr (hawaits other request hother)⟩,
        fun out hout => ?_⟩
      obtain rfl := mem_singleton.1 hout
      rfl
    | false => exact ⟨[], ⟨rfl, hstores, fun other request _ hother => .inr (hawaits other request hother)⟩, nofun⟩

end

theorem disconnect_outcome (h : transport.Stores inbox) :
    ∃ outs, transport.Outcome live transport.disconnect outs inbox ∧ ∀ out ∈ outs, out.message = none := by
  refine ⟨_, ⟨rfl, ⟨h.listed.withWanted _ _, ?_⟩, fun other request _ hother => .inl ⟨.disconnected, ?_⟩⟩, ?_⟩
  · intro id sender hsender
    replace hsender : (OrdMap.empty : OrdMap String Sender).get? id = some sender := hsender
    cases hsender
  · refine mem_map.2 ⟨other, mem_append.2 ?_, rfl⟩
    cases request with
    | next txUuid => exact .inl (mem_map.2 ⟨_, get?_eq_some_iff.1 hother.1, rfl⟩)
    | get msgId => exact .inr (mem_map.2 ⟨_, get?_eq_some_iff.1 hother, rfl⟩)
  · intro out hout
    obtain ⟨sender, -, rfl⟩ := mem_map.1 hout
    rfl

end WebSocketTransport

end AffinidiTdk.LiveStream
