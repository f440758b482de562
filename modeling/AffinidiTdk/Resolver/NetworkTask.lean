/-
The network task of the resolver (`affinidi-did-resolver-cache-sdk`, `networking/network.rs`, and `network_resolve` of
`networking/mod.rs`): its select loop with the requests that wait, the clients that send and time out, the server that
answers as it likes, and the connection. A DID is its hash; a socket that fails or closes is one event.
-/
import AffinidiTdk.Resolver.RequestQueue

namespace AffinidiTdk.Resolver

open Option

variable {K : Type} [LinearOrder K]

/-! ## Clients and commands -/

/-- How far a `network_resolve` is: before its `Send` is in the channel, waiting with the timer running, before its
`TimeOut` is in the channel, or back with `NetworkTimeout`, with an answer, or with a closed oneshot channel. -/
inductive Status
  | sending
  | waiting
  | expiring
  | timedOut
  | answered
  | disconnected
  deriving DecidableEq

/-- A caller of `resolve` that waits for its answer. -/
structure Client (K : Type) where
  uid : String
  hash : K
  status : Status

/-- What the SDK sends to the task. -/
inductive WSCommand (K : Type)
  | send (channel : Responder) (uid : String) (hash : K)
  | timeOut (uid : String) (hash : K)

namespace WSCommand

/-- The channel that a command carries. -/
def channel? : WSCommand K → Option Responder
  | send channel _ _ => some channel
  | timeOut _ _ => none

end WSCommand

/-- What the server sends; the texts that are not JSON of a response are `unparsable`. -/
inductive WSResponseType (K : Type)
  | response (hash : K)
  | error (hash : K)
  | unparsable

/-- The open connection, with the hashes whose request was written to it last, or `ws_connect` at work. -/
inductive Connection (K : Type)
  | up (written : List K)
  | connecting
  deriving DecidableEq

/-- The capacity of both channels between the SDK and the task. -/
def channelSize : ℕ := 32

/-! ## The task -/

/-- The task, its channel, the clients, and what it sent: every answer with the client it was for. The SDK reads the
first `Connected` only, at its start; later ones stay `unread`. -/
structure NetworkTask (K : Type) [LinearOrder K] where
  cache : RequestList K
  sdkRx : List (WSCommand K)
  connection : Connection K
  unread : ℕ
  clients : Responder → Option (Client K)
  answers : List Responder

/-- What can happen to the callers and to the task. -/
inductive Event (K : Type)
  | resolve (c : Responder) (uid : String) (hash : K)
  | send (c : Responder)
  | expire (c : Responder)
  | sendTimeOut (c : Responder)
  | read (written : Bool)
  | receive (message : WSResponseType K)
  | lost
  | connected

namespace NetworkTask

def start (limitCount : ℕ) : NetworkTask K := ⟨RequestList.new limitCount, [], .up [], 0, fun _ => none, []⟩

/-- The channels have come to something: their clients go on, if they wait still. -/
def settle (clients : Responder → Option (Client K)) (channels : List Responder) (status : Status) :
    Responder → Option (Client K) := fun c =>
  (clients c).map fun client => if c ∈ channels ∧ client.status = .waiting then { client with status } else client

/-- `ws_recv` for a response or an error: every channel of the hash is answered. -/
def answer (s : NetworkTask K) (hash : K) : NetworkTask K :=
  match s.cache.remove hash none with
  | (some channels, cache) =>
    { s with cache, clients := settle s.clients channels .answered, answers := s.answers ++ channels }
  | (none, cache) => { s with cache }

def wsRecv (s : NetworkTask K) : WSResponseType K → NetworkTask K
  | .response hash => s.answer hash
  | .error hash => s.answer hash
  | .unparsable => s

/-- The loop on a command. A new request is written to the socket, and whether that failed is not looked at. -/
def onCommand (s : NetworkTask K) (written : List K) (sent : Bool) : WSCommand K → NetworkTask K
  | .send channel uid hash =>
    match s.cache.insert hash uid channel with
    | (true, cache) =>
      let others := written.filter fun k => decide (k ≠ hash)
      { s with cache, connection := .up (if sent then hash :: others else others) }
    | (false, cache) => { s with cache }
  | .timeOut uid hash =>
    let (removed, cache) := s.cache.remove hash (some uid)
    { s with cache, clients := settle s.clients (removed.getD []) .disconnected }

/-- One step of a client, the task, the server or the network; `none` where it cannot happen. -/
def step (s : NetworkTask K) : Event K → Option (NetworkTask K)
  | .resolve c uid hash =>
    if (s.clients c).isNone then some { s with clients := Function.update s.clients c (some ⟨uid, hash, .sending⟩) }
    else none
  | .send c =>
    match s.clients c with
    | some ⟨uid, hash, .sending⟩ =>
      if s.sdkRx.length < channelSize then
        some { s with
          sdkRx := s.sdkRx ++ [.send c uid hash]
          clients := Function.update s.clients c (some ⟨uid, hash, .waiting⟩) }
      else none
    | _ => none
  | .expire c =>
    match s.clients c with
    | some ⟨uid, hash, .waiting⟩ =>
      some { s with clients := Function.update s.clients c (some ⟨uid, hash, .expiring⟩) }
    | _ => none
  | .sendTimeOut c =>
    match s.clients c with
    | some ⟨uid, hash, .expiring⟩ =>
      if s.sdkRx.length < channelSize then
        some { s with
          sdkRx := s.sdkRx ++ [.timeOut uid hash]
          clients := Function.update s.clients c (some ⟨uid, hash, .timedOut⟩) }
      else none
    | _ => none
  | .read sent =>
    match s.connection, s.sdkRx with
    | .up written, command :: rest =>
      -- the branch of the channel is off while the list is full
      if s.cache.isFull then none else some ({ s with sdkRx := rest }.onCommand written sent command)
    | _, _ => none
  | .receive message =>
    match s.connection with
    | .up _ => some (s.wsRecv message)
    | .connecting => none
  | .lost =>
    match s.connection with
    | .up _ => some { s with connection := .connecting }
    | .connecting => none
  | .connected =>
    match s.connection with
    | .up _ => none
    | .connecting =>
      if s.unread < channelSize then some { s with connection := .up [], unread := s.unread + 1 } else none

/-- The state after a run, where every event of it can happen. -/
def run (s : NetworkTask K) : List (Event K) → Option (NetworkTask K)
  | [] => some s
  | e :: es => (s.step e).bind fun s' => s'.run es

/-! ## What a step does -/

/-- The steps, with what each changes. -/
inductive Stepped (s : NetworkTask K) : Event K → NetworkTask K → Prop
  | resolve {c : Responder} (uid : String) (hash : K) (hnone : s.clients c = none) :
    Stepped s (.resolve c uid hash) { s with clients := Function.update s.clients c (some ⟨uid, hash, .sending⟩) }
  | send {c : Responder} {uid : String} {hash : K} (hclient : s.clients c = some ⟨uid, hash, .sending⟩) :
    Stepped s (.send c) { s with
      sdkRx := s.sdkRx ++ [.send c uid hash]
      clients := Function.update s.clients c (some ⟨uid, hash, .waiting⟩) }
  | expire {c : Responder} {uid : String} {hash : K} (hclient : s.clients c = some ⟨uid, hash, .waiting⟩) :
    Stepped s (.expire c) { s with clients := Function.update s.clients c (some ⟨uid, hash, .expiring⟩) }
  | sendTimeOut {c : Responder} {uid : String} {hash : K} (hclient : s.clients c = some ⟨uid, hash, .expiring⟩) :
    Stepped s (.sendTimeOut c) { s with
      sdkRx := s.sdkRx ++ [.timeOut uid hash]
      clients := Function.update s.clients c (some ⟨uid, hash, .timedOut⟩) }
  | readNew {written : List K} {c : Responder} {uid : String} {hash : K} {rest : List (WSCommand K)} (sent : Bool)
      (hup : s.connection = .up written) (hrx : s.sdkRx = .send c uid hash :: rest) (hfull : s.cache.isFull = false)
      (hnew : s.cache.list.get? hash = none) :
    Stepped s (.read sent) { s with
      sdkRx := rest
      cache := (s.cache.insert hash uid c).2
      connection := .up (if sent then hash :: written.filter fun k => decide (k ≠ hash)
        else written.filter fun k => decide (k ≠ hash)) }
  | readPending {c : Responder} {uid : String} {hash : K} {rest : List (WSCommand K)}
      {element : List (String × Responder)} (sent : Bool) (hrx : s.sdkRx = .send c uid hash :: rest)
      (hfull : s.cache.isFull = false) (hpending : s.cache.list.get? hash = some element) :
    Stepped s (.read sent) { s with sdkRx := rest, cache := (s.cache.insert hash uid c).2 }
  | readTimeOut {uid : String} {hash : K} {rest : List (WSCommand K)} (sent : Bool) (channels : List Responder)
      (hrx : s.sdkRx = .timeOut uid hash :: rest) (hfull : s.cache.isFull = false) :
    Stepped s (.read sent) { s with
      sdkRx := rest
      cache := (s.cache.remove hash (some uid)).2
      clients := settle s.clients channels .disconnected }
  | answered {hash : K} {channels : List (String × Responder)} (message : WSResponseType K)
      (hpending : s.cache.list.get? hash = some channels) :
    Stepped s (.receive message) { s with
      cache := s.cache.erase hash
      clients := settle s.clients (channels.map Prod.snd) .answered
      answers := s.answers ++ channels.map Prod.snd }
  | unanswered (message : WSResponseType K) : Stepped s (.receive message) s
  | lost : Stepped s .lost { s with connection := .connecting }
  | connected (hdown : s.connection = .connecting) :
    Stepped s .connected { s with connection := .up [], unread := s.unread + 1 }

variable {s s' : NetworkTask K} {e : Event K}

theorem stepped_answer (s : NetworkTask K) (hash : K) (message : WSResponseType K) :
    Stepped s (.receive message) (s.answer hash) := by
  unfold answer
  cases hget : s.cache.list.get? hash with
  | none =>
    rw [RequestList.remove_absent hget]
    exact .unanswered message
  | some channels =>
    rw [RequestList.remove_all hget]
    exact .answered message hget

theorem stepped_onCommand {written : List K} {command : WSCommand K} {rest : List (WSCommand K)} (sent : Bool)
    (hup : s.connection = .up written) (hrx : s.sdkRx = command :: rest) (hfull : s.cache.isFull = false) :
    Stepped s (.read sent) ({ s with sdkRx := rest }.onCommand written sent command) := by
  cases command with
  | send c uid hash =>
    cases hget : s.cache.list.get? hash with
    | none =>
      have hinsert := @RequestList.insert_new _ _ s.cache hash uid c hget
      have hstep := Stepped.readNew sent hup hrx hfull hget
      unfold onCommand
      dsimp only
      rw [hinsert] at hstep ⊢
      exact hstep
    | some element =>
      have hinsert := @RequestList.insert_pending _ _ s.cache hash uid c _ hget
      have hstep := Stepped.readPending sent hrx hfull hget
      unfold onCommand
      dsimp only
      rw [hinsert] at hstep ⊢
      exact hstep
  | timeOut uid hash => exact .readTimeOut sent _ hrx hfull

/-- What a step can do, one case for each way an event can go. -/
theorem stepped_of_step (h : s.step e = some s') : Stepped s e s' := by
  cases e with
  | resolve c uid hash =>
    simp only [step, isNone_iff_eq_none] at h
    split at h
    · cases h
      exact .resolve uid hash ‹_›
    · cases h
  | send c =>
    simp only [step] at h
    split at h
    · split at h
      · cases h
        exact .send ‹_›
      · cases h
    · cases h
  | expire c =>
    simp only [step] at h
    split at h
    · cases h
      exact .expire ‹_›
    · cases h
  | sendTimeOut c =>
    simp only [step] at h
    split at h
    · split at h
      · cases h
        exact .sendTimeOut ‹_›
      · cases h
    · cases h
  | read sent =>
    simp only [step] at h
    split at h
    · split at h
      · cases h
      · cases h
        exact stepped_onCommand sent ‹_› ‹_› (Bool.eq_false_of_not_eq_true ‹_›)
    · cases h
  | receive message =>
    simp only [step] at h
    split at h
    · cases h
      cases message with
      | response hash | error hash => exact stepped_answer s hash _
      | unparsable => exact .unanswered _
    · cases h
  | lost =>
    simp only [step] at h
    split at h
    · cases h
      exact .lost
    · cases h
  | connected =>
    simp only [step] at h
    split at h
    · cases h
    · split at h
      · cases h
        exact .connected ‹_›
      · cases h

end NetworkTask

end AffinidiTdk.Resolver
