/-
The live stream as a whole (`protocols/message_pickup.rs` around the socket task): callers that ask for the next
message or for one by its id and may time out at any moment, the channel of their commands, the loop, and the socket.
A call is named by a number, which also stands for the sender of its one-shot channel. Every message that came in is
accounted for, and every caller that waits is known to the loop, as long as no message is handed to a call that has
timed out, no call takes the place of another that waits, and no message is cached under the id of a cached one.
-/
import AffinidiTdk.LiveStream.Transport
import Mathlib.Data.List.Perm.Basic

namespace AffinidiTdk.LiveStream

open Function List Option WebSocketTransport
open Didcomm (Message)

/-! ## Calls -/

/-- A call waits, has its answer, has given up and dropped its receiver, or has also sent its cancel command. -/
inductive CallStatus (Metadata : Type)
  | waiting
  | answered (response : WebSocketResponse Metadata)
  | timedOut
  | cancelled

/-- A waiting call with what became of it. -/
structure Call (Metadata : Type) where
  request : Request
  status : CallStatus Metadata := .waiting

def CallStatus.isWaiting {Metadata : Type} : CallStatus Metadata → Bool
  | .waiting => true
  | _ => false

/-- The call can still give up: the timer may win even when the answer is there already. -/
def CallStatus.isOpen {Metadata : Type} : CallStatus Metadata → Bool
  | .waiting => true
  | .answered _ => true
  | _ => false

def CallStatus.isTimedOut {Metadata : Type} : CallStatus Metadata → Bool
  | .timedOut => true
  | _ => false

def commandCapacity : ℕ := 32

/-! ## The system -/

/-- The loop, the commands on their way to it, the calls, and what became of the messages: those that were received,
those that were sent to a waiting call, and those that went to the direct channel. -/
structure Stream (Metadata : Type) where
  transport : WebSocketTransport Metadata ℕ
  commands : List (WebSocketCommand ℕ) := []
  calls : ℕ → Option (Call Metadata) := fun _ => none
  txUuid : ℕ := 0
  received : List (Message × Metadata) := []
  delivered : List (ℕ × Message × Metadata) := []
  direct : List (Message × Metadata) := []

/-- What can happen to the transport and to the callers that wait. -/
inductive StreamEvent
  | callNext (c : ℕ)
  | callGet (c : ℕ) (msgId : String)
  | timeOut (c : ℕ)
  | sendCancel (c : ℕ)
  | enableInboundChannel
  | disableInboundChannel
  | command
  | receive (text : String)
  | disconnect
  | connect

namespace Stream

variable {Metadata : Type} (messageSize : UInt64) (atm : Atm Metadata)

def fresh (limitCount : UInt32) (limitBytes : UInt64) (directChannel skipUnpackMessages : Bool) :
    Stream Metadata where
  transport := {
    inboundCache := { fetchCacheLimitCount := limitCount, fetchCacheLimitBytes := limitBytes }
    directChannel := directChannel
    skipUnpackMessages := skipUnpackMessages }

def isWaiting (w : Stream Metadata) (c : ℕ) : Bool := (w.calls c).any fun call => call.status.isWaiting

def setStatus (c : ℕ) (status : CallStatus Metadata) (w : Stream Metadata) : Stream Metadata :=
  { w with calls := Function.update w.calls c ((w.calls c).map fun call => { call with status := status }) }

/-- Send into a one-shot channel: without a receiver the message is gone, and the loop does not look. -/
def deliver (w : Stream Metadata) : Outgoing Metadata ℕ → Stream Metadata
  | .reply c response =>
    if w.isWaiting c then
      let w := w.setStatus c (.answered response)
      match response with
      | .messageReceived message metadata => { w with delivered := w.delivered ++ [(c, message, metadata)] }
      | _ => w
    else w
  | .direct (.messageReceived message metadata) => { w with direct := w.direct ++ [(message, metadata)] }
  | .direct _ => w

/-- A step of the loop: its new state, and what it sends. -/
def loop (r : List (Outgoing Metadata ℕ) × WebSocketTransport Metadata ℕ) (w : Stream Metadata) : Stream Metadata :=
  r.1.foldl deliver { w with transport := r.2 }

/-- The message in a text, if the loop unpacks it. -/
def unpacked (transport : WebSocketTransport Metadata ℕ) (text : String) : Option (Message × Metadata) :=
  if transport.skipUnpackMessages || atm.isTsp text then none else (atm.unpack text).toOption

/-- A new call puts its command into the channel. -/
def call (c : ℕ) (request : Request) (w : Stream Metadata) : Option (Stream Metadata) :=
  if (w.calls c).isNone ∧ w.commands.length < commandCapacity then
    some { w with
      calls := Function.update w.calls c (some { request := request })
      commands := w.commands ++ [request.command c] }
  else none

def push (command : WebSocketCommand ℕ) (w : Stream Metadata) : Option (Stream Metadata) :=
  if w.commands.length < commandCapacity then some { w with commands := w.commands ++ [command] } else none

/-- One event, if it can happen. -/
def step (w : Stream Metadata) : StreamEvent → Option (Stream Metadata)
  | .callNext c => w.call c (.next w.txUuid) |>.map fun w => { w with txUuid := (w.txUuid + 1) % 2 ^ 32 }
  | .callGet c msgId => w.call c (.get msgId)
  | .timeOut c => if (w.calls c).any fun call => call.status.isOpen then some (w.setStatus c .timedOut) else none
  | .sendCancel c => do
    let call ← w.calls c
    if call.status.isTimedOut then (w.setStatus c .cancelled).push call.request.cancel else none
  | .enableInboundChannel => w.push .enableInboundChannel
  | .disableInboundChannel => w.push .disableInboundChannel
  | .command =>
    match w.commands with
    | [] => none
    | command :: rest => some (loop (w.transport.handleCommand messageSize command) { w with commands := rest })
  | .receive text =>
    if w.transport.webSocket && !w.transport.inboundCache.isFull then
      some (loop (w.transport.processInboundDidcommMessage messageSize atm text)
        { w with received := w.received ++ (unpacked atm w.transport text).toList })
    else none
  | .disconnect => if w.transport.webSocket then some (loop w.transport.disconnect w) else none
  | .connect => if w.transport.webSocket then none else some
      { w with transport := { w.transport with webSocket := true } }

def run (w : Stream Metadata) (events : List StreamEvent) : Option (Stream Metadata) :=
  events.foldlM (step messageSize atm) w

/-! ## What is promised -/

/-- The loop knows of a request: its command is on the way, or its sender is in the table it will be taken from. -/
def Holds (w : Stream Metadata) (c : ℕ) (request : Request) : Prop :=
  request.command c ∈ w.commands ∨ w.transport.Awaits c request

/-- Every message that came in was sent to one waiting call, or to the direct channel, or is in the cache, where
`next` finds it; no call got two; and no call waits for an answer that nobody can send any more. -/
structure Lossless (w : Stream Metadata) : Prop where
  kept : w.received.Perm (w.delivered.map Prod.snd ++ w.direct ++ w.transport.inboundCache.messages.values)
  once : (w.delivered.map Prod.fst).Nodup
  listed : w.transport.inboundCache.orderedList.Perm w.transport.inboundCache.messages.keys
  held : ∀ c call, w.calls c = some call → call.status.isWaiting = true → w.Holds c call.request

/-! ## The branches that go wrong -/

/-- A message goes to a call that still waits, and is not cached under the id of a cached one. -/
def ClearMessage (w : Stream Metadata) (message : Message) : Prop :=
  (∀ c, w.transport.recipient message = some c → w.isWaiting c = true) ∧
  (w.transport.recipient message = none → w.transport.directChannel = false →
    w.transport.inboundCache.messages.get? message.id = none)

/-- A request that the cache answers is of a call that still waits, and one that has to wait takes no waiting call's
place; a request that is cancelled is not of a waiting call. -/
def ClearCommand (w : Stream Metadata) : WebSocketCommand ℕ → Prop
  | .next txUuid c =>
    (w.transport.inboundCache.orderedList ≠ [] → w.isWaiting c = true) ∧
    (w.transport.inboundCache.orderedList = [] → ∀ c', w.transport.nextRequests.get? txUuid = some c' →
      w.isWaiting c' = false)
  | .cancelNext txUuid => ∀ c', w.transport.nextRequests.get? txUuid = some c' → w.isWaiting c' = false
  | .getMessage msgId c =>
    ((w.transport.inboundCache.find msgId).isSome → w.isWaiting c = true) ∧
    (w.transport.inboundCache.find msgId = none → ∀ c', w.transport.inboundCache.wantedList.get? msgId = some c' →
      w.isWaiting c' = false)
  | _ => True

def Clear (w : Stream Metadata) : StreamEvent → Prop
  | .command => ∀ command, w.commands.head? = some command → w.ClearCommand command
  | .receive text => ∀ entry, unpacked atm w.transport text = some entry → w.ClearMessage entry.1
  | _ => True

/-- Every event of a run happens in a state that is clear for it. -/
def ClearAlong (w : Stream Metadata) : List StreamEvent → Prop
  | [] => True
  | event :: events => w.Clear atm event ∧ ∀ w', w.step messageSize atm event = some w' → w'.ClearAlong events

/-! ## Sending -/

section

variable {messageSize : UInt64} {atm : Atm Metadata} {w : Stream Metadata}

variable {c : ℕ}

theorem isWaiting_iff : w.isWaiting c = true ↔ ∃ call, w.calls c = some call ∧ call.status.isWaiting = true := by
  unfold isWaiting
  rw [Option.any_eq_true]

variable {status : CallStatus Metadata}

theorem calls_setStatus {c' : ℕ} {call : Call Metadata} (hstatus : status.isWaiting = false)
    (h : (w.setStatus c status).calls c' = some call) (hwaiting : call.status.isWaiting = true) :
    c' ≠ c ∧ w.calls c' = some call := by
  by_cases hc : c' = c
  · subst hc
    simp only [setStatus, update_self, map_eq_some_iff] at h
    obtain ⟨old, -, rfl⟩ := h
    exact absurd (hstatus.symm.trans hwaiting) nofun
  · simp only [setStatus, update_of_ne hc] at h
    exact ⟨hc, h⟩

theorem isSome_setStatus (c c' : ℕ) (status : CallStatus Metadata) :
    ((w.setStatus c status).calls c').isSome = (w.calls c').isSome := by
  by_cases hc : c' = c
  · subst hc
    simp [setStatus]
  · simp [setStatus, update_of_ne hc]

theorem deliver_lost {response : WebSocketResponse Metadata} (hc : ¬ w.isWaiting c = true) :
    w.deliver (.reply c response) = w := if_neg hc

theorem deliver_message {c : ℕ} (hc : w.isWaiting c = true) (entry : Message × Metadata) :
    w.deliver (.reply c (.messageReceived entry.1 entry.2)) =
      { w.setStatus c (.answered (.messageReceived entry.1 entry.2)) with delivered := w.delivered ++
        [(c, entry)] } :=
  if_pos hc

variable {out : Outgoing Metadata ℕ}

theorem calls_deliver {call : Call Metadata} (h : (w.deliver out).calls c = some call)
    (hwaiting : call.status.isWaiting = true) : w.calls c = some call ∧ ∀ response, out ≠ .reply c response := by
  cases out with
  | direct response =>
    refine ⟨?_, nofun⟩
    cases response with
    | messageReceived => exact h
    | packedMessageReceived | disconnected => exact h
  | reply c' response =>
    unfold deliver at h
    by_cases hc' : w.isWaiting c' = true
    · have h' : (w.setStatus c' (.answered response)).calls c = some call := by
        simp only [if_pos hc'] at h
        cases response with
        | messageReceived => exact h
        | packedMessageReceived | disconnected => exact h
      obtain ⟨hne, hcall⟩ := calls_setStatus rfl h' hwaiting
      refine ⟨hcall, fun response' heq => ?_⟩
      cases heq
      exact hne rfl
    · simp only [if_neg hc'] at h
      refine ⟨h, fun response' heq => ?_⟩
      cases heq
      exact hc' (isWaiting_iff.2 ⟨call, h, hwaiting⟩)

theorem deliver_frame (out : Outgoing Metadata ℕ) :
    (w.deliver out).transport = w.transport ∧ (w.deliver out).commands = w.commands ∧
    (w.deliver out).received = w.received ∧ ∀ c, ((w.deliver out).calls c).isSome = (w.calls c).isSome := by
  cases out with
  | direct response => cases response with
    | messageReceived | packedMessageReceived | disconnected => exact ⟨rfl, rfl, rfl, fun c => rfl⟩
  | reply c response =>
    by_cases hc : w.isWaiting c = true
    · unfold deliver
      simp only [if_pos hc]
      cases response with
      | messageReceived | packedMessageReceived | disconnected =>
        exact ⟨rfl, rfl, rfl, fun c' => isSome_setStatus c c' _⟩
    · rw [deliver_lost hc]
      exact ⟨rfl, rfl, rfl, fun c' => rfl⟩

theorem deliver_quiet (h : out.message = none) :
    (w.deliver out).delivered = w.delivered ∧ (w.deliver out).direct = w.direct := by
  cases out with
  | direct response =>
    cases response with
    | messageReceived => cases h
    | packedMessageReceived | disconnected => exact ⟨rfl, rfl⟩
  | reply c response =>
    by_cases hc : w.isWaiting c = true
    · unfold deliver
      simp only [if_pos hc]
      cases response with
      | messageReceived => cases h
      | packedMessageReceived | disconnected => exact ⟨rfl, rfl⟩
    · rw [deliver_lost hc]
      exact ⟨rfl, rfl⟩

theorem foldl_frame (outs : List (Outgoing Metadata ℕ)) (w : Stream Metadata) :
    (outs.foldl deliver w).transport = w.transport ∧ (outs.foldl deliver w).commands = w.commands ∧
    (outs.foldl deliver w).received = w.received ∧
    ∀ c, ((outs.foldl deliver w).calls c).isSome = (w.calls c).isSome := by
  induction outs generalizing w with
  | nil => exact ⟨rfl, rfl, rfl, fun c => rfl⟩
  | cons out outs ih =>
    obtain ⟨htransport, hcommands, hreceived, hcalls⟩ := @deliver_frame _ w out
    obtain ⟨htransport', hcommands', hreceived', hcalls'⟩ := ih (w.deliver out)
    exact ⟨htransport'.trans htransport, hcommands'.trans hcommands, hreceived'.trans hreceived,
      fun c => (hcalls' c).trans (hcalls c)⟩

variable {outs : List (Outgoing Metadata ℕ)}

theorem calls_foldl {call : Call Metadata} (h : (outs.foldl deliver w).calls c = some call)
    (hwaiting : call.status.isWaiting = true) : w.calls c = some call ∧ ∀ response, .reply c response ∉ outs := by
  induction outs generalizing w with
  | nil => exact ⟨h, nofun⟩
  | cons out outs ih =>
    obtain ⟨hcall, hrest⟩ := ih h
    obtain ⟨hcall', hout⟩ := calls_deliver hcall hwaiting
    refine ⟨hcall', fun response hmem => ?_⟩
    rcases mem_cons.1 hmem with heq | hmem
    · exact hout response heq.symm
    · exact hrest response hmem

theorem quiet_nil : ∀ out ∈ ([] : List (Outgoing Metadata ℕ)), out.message = none := fun _ h =>
  absurd h not_mem_nil

theorem foldl_quiet (h : ∀ out ∈ outs, out.message = none) (w : Stream Metadata) :
    (outs.foldl deliver w).delivered = w.delivered ∧ (outs.foldl deliver w).direct = w.direct := by
  induction outs generalizing w with
  | nil => exact ⟨rfl, rfl⟩
  | cons out outs ih =>
    obtain ⟨hdelivered, hdirect⟩ := @deliver_quiet _ w out (h out mem_cons_self)
    obtain ⟨hdelivered', hdirect'⟩ := ih (fun other hother => h other (mem_cons_of_mem _ hother))
      (w.deliver out)
    exact ⟨hdelivered'.trans hdelivered, hdirect'.trans hdirect⟩

/-! ## The invariant -/

/-- What came in was handed out once or is in the inbox that the cache holds, and every waiting call is known. -/
structure Accounted (w : Stream Metadata) (inbox : List (Message × Metadata)) : Prop where
  stores : w.transport.Stores inbox
  kept : w.received.Perm (w.delivered.map Prod.snd ++ w.direct ++ inbox)
  once : (w.delivered.map Prod.fst).Nodup
  gone : ∀ c ∈ w.delivered.map Prod.fst, (w.calls c).isSome = true ∧ w.isWaiting c = false
  held : ∀ c call, w.calls c = some call → call.status.isWaiting = true → w.Holds c call.request

theorem Accounted.lossless {inbox : List (Message × Metadata)} (h : w.Accounted inbox) : w.Lossless := by
  have hvalues := h.stores.listed.perm_entries.map Prod.snd
  rw [List.map_map] at hvalues
  have hinbox : w.transport.inboundCache.messages.values.Perm inbox := by
    rwa [show Prod.snd ∘ (fun entry : Message × Metadata => (entry.1.id, entry)) = id from rfl,
      List.map_id] at hvalues
  exact ⟨h.kept.trans (hinbox.symm.append_left _), h.once, h.stores.listed.keys_perm, h.held⟩

/-- The commands that are left after one was taken, and the requests that a step must not lose. -/
def Keeps (w : Stream Metadata) (commands : List (WebSocketCommand ℕ))
    (r : List (Outgoing Metadata ℕ) × WebSocketTransport Metadata ℕ) (outs : List (Outgoing Metadata ℕ)) : Prop :=
  ∀ c call, w.calls c = some call → call.status.isWaiting = true → call.request.command c ∈ w.commands →
    call.request.command c ∈ commands ∨ (∃ response, .reply c response ∈ outs) ∨ r.2.Awaits c call.request

variable {inbox inbox' : List (Message × Metadata)} {commands : List (WebSocketCommand ℕ)}
  {received : List (Message × Metadata)} {r : List (Outgoing Metadata ℕ) × WebSocketTransport Metadata ℕ}
  {outs : List (Outgoing Metadata ℕ)}

theorem Accounted.held_loop (h : w.Accounted inbox)
    (houtcome : w.transport.Outcome (fun c => w.isWaiting c = true) r outs inbox')
      (hkeeps : w.Keeps commands r outs) :
    ∀ c call, (loop r { w with commands := commands, received := received }).calls c = some call →
      call.status.isWaiting = true →
      (loop r { w with commands := commands, received := received }).Holds c call.request := by
  intro c call hcall hwaiting
  unfold loop at hcall ⊢
  obtain ⟨hcall', hnot⟩ := calls_foldl hcall hwaiting
  rw [houtcome.sent] at hnot
  replace hcall' : w.calls c = some call := hcall'
  obtain ⟨htransport, hcommands, -, -⟩ := foldl_frame r.1
    { { w with commands := commands, received := received } with transport := r.2 }
  unfold Holds
  rw [htransport, hcommands]
  rcases h.held c call hcall' hwaiting with hcommand | hawaits
  · rcases hkeeps c call hcall' hwaiting hcommand with hkept | ⟨response, hreply⟩ | hkept
    · exact .inl hkept
    · exact absurd hreply (hnot response)
    · exact .inr hkept
  · rcases houtcome.awaits c call.request (isWaiting_iff.2 ⟨call, hcall', hwaiting⟩) hawaits with
      ⟨response, hreply⟩ | hkept
    · exact absurd hreply (hnot response)
    · exact .inr hkept

theorem Accounted.gone_loop (h : w.Accounted inbox) :
    ∀ c ∈ w.delivered.map Prod.fst,
      ((loop r { w with commands := commands, received := received }).calls c).isSome = true ∧
      (loop r { w with commands := commands, received := received }).isWaiting c = false := by
  intro c hc
  obtain ⟨hsome, hwaiting⟩ := h.gone c hc
  unfold loop
  obtain ⟨-, -, -, hcalls⟩ := foldl_frame r.1
    { { w with commands := commands, received := received } with transport := r.2 }
  refine ⟨(hcalls c).trans hsome, Bool.eq_false_iff.2 fun hafter => ?_⟩
  obtain ⟨call, hcall, hcallwaiting⟩ := isWaiting_iff.1 hafter
  have hbefore := isWaiting_iff.2 ⟨call, (calls_foldl hcall hcallwaiting).1, hcallwaiting⟩
  exact absurd (hwaiting.symm.trans hbefore) nofun

theorem Accounted.quiet (h : w.Accounted inbox)
    (houtcome : w.transport.Outcome (fun c => w.isWaiting c = true) r outs inbox') (hkeeps : w.Keeps commands r outs)
    (hquiet : ∀ out ∈ outs, out.message = none)
    (hreceived : received.Perm (w.delivered.map Prod.snd ++ w.direct ++ inbox')) :
    (loop r { w with commands := commands, received := received }).Accounted inbox' := by
  have hquiet' : ∀ out ∈ r.1, out.message = none := by
    rw [houtcome.sent]
    exact hquiet
  obtain ⟨htransport, -, hreceived', -⟩ := foldl_frame r.1
    { { w with commands := commands, received := received } with transport := r.2 }
  obtain ⟨hdelivered, hdirect⟩ := foldl_quiet hquiet'
    { { w with commands := commands, received := received } with transport := r.2 }
  refine ⟨?_, ?_, ?_, ?_, h.held_loop houtcome hkeeps⟩
  · unfold loop
    rw [htransport]
    exact houtcome.stores
  · unfold loop
    rw [hreceived', hdelivered, hdirect]
    exact hreceived
  · unfold loop
    rw [hdelivered]
    exact h.once
  · intro c hc
    refine h.gone_loop c ?_
    unfold loop at hc
    rw [hdelivered] at hc
    exact hc

theorem Accounted.handed (h : w.Accounted inbox) {c : ℕ} {entry : Message × Metadata}
    (houtcome : w.transport.Outcome (fun c => w.isWaiting c = true) r
      [.reply c (.messageReceived entry.1 entry.2)] inbox')
    (hkeeps : w.Keeps commands r [.reply c (.messageReceived entry.1 entry.2)]) (hwaiting : w.isWaiting c = true)
    (hreceived : received.Perm (w.delivered.map Prod.snd ++ w.direct ++ entry :: inbox')) :
    (loop r { w with commands := commands, received := received }).Accounted inbox' := by
  obtain ⟨htransport, -, hreceived', hcalls⟩ := foldl_frame r.1
    { { w with commands := commands, received := received } with transport := r.2 }
  have hloop : loop r { w with commands := commands, received := received } =
      { (setStatus c (.answered (.messageReceived entry.1 entry.2)) { w with
          commands := commands
          received := received
          transport := r.2 }) with delivered := w.delivered ++ [(c, entry)] } := by
    unfold loop
    rw [houtcome.sent]
    exact deliver_message
      (w := { w with commands := commands, received := received, transport := r.2 }) hwaiting entry
  have hdelivered : (loop r { w with commands := commands, received := received }).delivered =
      w.delivered ++ [(c, entry)] := by rw [hloop]
  have hdirect : (loop r { w with commands := commands, received := received }).direct = w.direct := by
    rw [hloop]
    rfl
  refine ⟨?_, ?_, ?_, ?_, h.held_loop houtcome hkeeps⟩
  · unfold loop
    rw [htransport]
    exact houtcome.stores
  · rw [hdelivered, hdirect]
    unfold loop
    rw [hreceived', map_append]
    refine hreceived.trans ?_
    simp only [map_cons, map_nil, append_assoc, singleton_append]
    exact perm_middle.append_left _
  · rw [hdelivered, map_append]
    refine nodup_append.2 ⟨h.once, nodup_singleton c, fun a ha b hb hab => ?_⟩
    obtain rfl : b = c := mem_singleton.1 hb
    subst hab
    exact absurd ((h.gone a ha).2.symm.trans hwaiting) nofun
  · intro a ha
    rw [hdelivered, map_append] at ha
    rcases mem_append.1 ha with ha | ha
    · exact h.gone_loop a ha
    · obtain rfl : a = c := mem_singleton.1 ha
      obtain ⟨call, hcall, -⟩ := isWaiting_iff.1 hwaiting
      have hsome : (w.calls a).isSome = true := by
        rw [hcall]
        rfl
      unfold loop
      refine ⟨(hcalls a).trans hsome, Bool.eq_false_iff.2 fun hafter => ?_⟩
      obtain ⟨call', hcall', hwaiting'⟩ := isWaiting_iff.1 hafter
      refine (calls_foldl hcall' hwaiting').2 (.messageReceived entry.1 entry.2) ?_
      rw [houtcome.sent]
      exact mem_singleton_self _

theorem Accounted.channel (h : w.Accounted inbox) {entry : Message × Metadata}
    (houtcome : w.transport.Outcome (fun c => w.isWaiting c = true) r
      [.direct (.messageReceived entry.1 entry.2)] inbox')
    (hkeeps : w.Keeps commands r [.direct (.messageReceived entry.1 entry.2)])
    (hreceived : received.Perm (w.delivered.map Prod.snd ++ w.direct ++ entry :: inbox')) :
    (loop r { w with commands := commands, received := received }).Accounted inbox' := by
  have hloop : loop r { w with commands := commands, received := received } =
      { w with commands := commands, received := received, transport := r.2, direct := w.direct ++ [entry] } := by
    unfold loop
    rw [houtcome.sent]
    rfl
  have hgone := @gone_loop _ _ _ commands received r h
  have hheld := @held_loop _ _ _ _ commands received r _ h houtcome hkeeps
  rw [hloop] at hheld hgone ⊢
  refine ⟨houtcome.stores, hreceived.trans ?_, h.once, hgone, hheld⟩
  simp only [append_assoc, singleton_append]
  exact .refl _

/-! ## Runs -/

theorem accounted_fresh (limitCount : UInt32) (limitBytes : UInt64) (directChannel skipUnpackMessages : Bool) :
    (fresh limitCount limitBytes directChannel skipUnpackMessages : Stream Metadata).Accounted [] := by
  refine ⟨⟨⟨.nil, rfl, fun key entry => ?_⟩, fun id c hwanted => ?_⟩, .nil, .nil,
    fun _ hc => absurd hc not_mem_nil, fun _ call hcall =>
      absurd (show (none : Option (Call Metadata)) = some call from hcall) (by simp)⟩
  · simp [fresh, OrdMap.empty, OrdMap.get?]
  · rfl

variable {request : Request} {w' : Stream Metadata}

theorem Holds.mono (h : w.Holds c request) (hcommands : ∀ command ∈ w.commands, command ∈ w'.commands)
    (htransport : w'.transport = w.transport) : w'.Holds c request := by
  unfold Holds
  rw [htransport]
  exact h.imp_left (hcommands _)

theorem Accounted.call (h : w.Accounted inbox) (hcall : w.call c request = some w') : w'.Accounted inbox := by
  unfold Stream.call at hcall
  by_cases hfree : (w.calls c).isNone ∧ w.commands.length < commandCapacity
  · rw [if_pos hfree, some_inj] at hcall
    have hnone : w.calls c = none := isNone_iff_eq_none.1 hfree.1
    subst hcall
    refine ⟨h.stores, h.kept, h.once, fun a ha => ?_, fun a call ha hwaiting => ?_⟩
    · have hne : a ≠ c := by
        rintro rfl
        have hsome := (h.gone a ha).1
        rw [hnone] at hsome
        cases hsome
      obtain ⟨hsome, hwaiting⟩ := h.gone a ha
      simp only [isWaiting, update_of_ne hne]
      exact ⟨hsome, hwaiting⟩
    · by_cases hc : a = c
      · subst hc
        replace ha : update w.calls a (some { request := request }) a = some call := ha
        rw [update_self, some_inj] at ha
        subst ha
        exact .inl (mem_append_right _ (mem_singleton_self _))
      · replace ha : update w.calls c (some { request := request }) a = some call := ha
        rw [update_of_ne hc] at ha
        exact (h.held a call ha hwaiting).mono (fun _ hmem => mem_append_left _ hmem) rfl
  · rw [if_neg hfree] at hcall
    cases hcall

theorem Accounted.push (h : w.Accounted inbox) {command : WebSocketCommand ℕ} (hpush : w.push command = some w') :
    w'.Accounted inbox := by
  unfold Stream.push at hpush
  by_cases hfree : w.commands.length < commandCapacity
  · rw [if_pos hfree, some_inj] at hpush
    subst hpush
    exact ⟨h.stores, h.kept, h.once, h.gone,
      fun a call ha hwaiting => (h.held a call ha hwaiting).mono (fun _ hmem => mem_append_left _ hmem) rfl⟩
  · rw [if_neg hfree] at hpush
    cases hpush

theorem Accounted.setStatus (h : w.Accounted inbox) (c : ℕ) (hstatus : status.isWaiting = false) :
    (w.setStatus c status).Accounted inbox := by
  refine ⟨h.stores, h.kept, h.once, fun a ha => ?_, fun a call ha hwaiting => ?_⟩
  · obtain ⟨hsome, hwaiting⟩ := h.gone a ha
    refine ⟨(isSome_setStatus c a status).trans hsome, Bool.eq_false_iff.2 fun hafter => ?_⟩
    obtain ⟨call, hcall, hcallwaiting⟩ := isWaiting_iff.1 hafter
    have hbefore := isWaiting_iff.2 ⟨call, (calls_setStatus hstatus hcall hcallwaiting).2, hcallwaiting⟩
    exact absurd (hwaiting.symm.trans hbefore) nofun
  · exact h.held a call (calls_setStatus hstatus ha hwaiting).2 hwaiting

theorem perm_filter {cache : MessageCache Metadata ℕ} (h : cache.Listed inbox) {entry : Message × Metadata}
    (hentry : cache.messages.get? entry.1.id = some entry) :
    inbox.Perm (entry :: inbox.filter fun other => !decide (entry.1.id = other.1.id)) := by
  have hmem := ((h.cached _ _).1 hentry).1
  have hsplit := (filter_append_perm (fun other => decide (entry.1.id = other.1.id)) inbox).symm
  have hsingle : (inbox.filter fun other => decide (entry.1.id = other.1.id)) = [entry] := by
    have hnodup := List.Nodup.of_map _ h.nodup
    refine perm_singleton.1 ((perm_ext_iff_of_nodup (hnodup.filter _) (nodup_singleton _)).2 ?_)
    intro other
    rw [mem_filter, decide_eq_true_iff, mem_singleton]
    constructor
    · rintro ⟨hother, hid⟩
      exact some_inj.1 (((h.cached _ _).2 ⟨hother, hid.symm⟩).symm.trans hentry)
    · rintro rfl
      exact ⟨hmem, rfl⟩
  rwa [hsingle] at hsplit

theorem keeps_of_forall {command : WebSocketCommand ℕ} {rest : List (WebSocketCommand ℕ)}
    (hcommands : w.commands = command :: rest)
    (h : ∀ c call, w.calls c = some call → call.status.isWaiting = true → call.request.command c = command →
      (∃ response, .reply c response ∈ outs) ∨ r.2.Awaits c call.request) : w.Keeps rest r outs := by
  intro c call hcall hwaiting hmem
  rw [hcommands] at hmem
  rcases mem_cons.1 hmem with heq | hmem
  · exact .inr (h c call hcall hwaiting heq)
  · exact .inl hmem

theorem Accounted.command (h : w.Accounted inbox) {command : WebSocketCommand ℕ}
    {rest : List (WebSocketCommand ℕ)} (hcommands : w.commands = command :: rest) (hclear : w.ClearCommand command) :
    ∃ inbox', (loop (w.transport.handleCommand messageSize command) { w with commands := rest }).Accounted
      inbox' := by
  -- a command that is no request is nobody's
  have hnobody : ∀ outs, (∀ c request, Request.command c request ≠ command) →
      w.Keeps rest (w.transport.handleCommand messageSize command) outs := fun outs hcommand =>
    keeps_of_forall hcommands fun c call _ _ heq => absurd heq (hcommand c call.request)
  cases command with
  | enableInboundChannel =>
    have houtcome : w.transport.Outcome (fun c => w.isWaiting c = true)
        (w.transport.handleCommand messageSize .enableInboundChannel) [] inbox :=
      ⟨rfl, ⟨h.stores.listed, h.stores.apart⟩, fun c request _ ha => .inr (by cases request <;> exact ha)⟩
    exact ⟨inbox, h.quiet houtcome (hnobody _ fun c request => by cases request <;> nofun) quiet_nil h.kept⟩
  | disableInboundChannel =>
    have houtcome : w.transport.Outcome (fun c => w.isWaiting c = true)
        (w.transport.handleCommand messageSize .disableInboundChannel) [] inbox :=
      ⟨rfl, ⟨h.stores.listed, h.stores.apart⟩, fun c request _ ha => .inr (by cases request <;> exact ha)⟩
    exact ⟨inbox, h.quiet houtcome (hnobody _ fun c request => by cases request <;> nofun) quiet_nil h.kept⟩
  | cancelGetMessage id =>
    have houtcome : w.transport.Outcome (fun c => w.isWaiting c = true)
        (w.transport.handleCommand messageSize (.cancelGetMessage id)) [] inbox :=
      ⟨rfl, h.stores, fun _ _ _ ha => .inr ha⟩
    exact ⟨inbox, h.quiet houtcome (hnobody _ fun c request => by cases request <;> nofun) quiet_nil h.kept⟩
  | cancelNext id =>
    have houtcome : w.transport.Outcome (fun c => w.isWaiting c = true)
        (w.transport.handleCommand messageSize (.cancelNext id)) [] inbox :=
      handleCommand_cancelNext h.stores fun c hc hlive =>
        absurd ((hclear c hc).symm.trans hlive) nofun
    exact ⟨inbox, h.quiet houtcome (hnobody _ fun c request => by cases request <;> nofun) quiet_nil h.kept⟩
  | next id c =>
    cases inbox with
    | nil =>
      have hempty : w.transport.inboundCache.orderedList = [] := h.stores.listed.ordered
      obtain ⟨houtcome, hawaits⟩ : w.transport.Outcome (fun c => w.isWaiting c = true)
          (w.transport.handleCommand messageSize (.next id c)) [] [] ∧
          (w.transport.handleCommand messageSize (.next id c)).2.Awaits c (.next id) :=
        handleCommand_next_of_nil h.stores fun c' hc' hlive =>
          absurd ((hclear.2 hempty c' hc').symm.trans hlive) nofun
      refine ⟨[], h.quiet houtcome (keeps_of_forall hcommands fun a call _ _ heq => .inr ?_) quiet_nil h.kept⟩
      obtain ⟨rfl, hrequest⟩ := Request.command_eq_next heq
      rw [hrequest]
      exact hawaits
    | cons entry rest' =>
      have hnonempty : w.transport.inboundCache.orderedList ≠ [] := by
        rw [h.stores.listed.ordered]
        exact cons_ne_nil _ _
      refine ⟨rest', h.handed (handleCommand_next_of_cons h.stores id c)
        (keeps_of_forall hcommands fun a call _ _ heq => .inl ?_) (hclear.1 hnonempty) h.kept⟩
      obtain ⟨rfl, -⟩ := Request.command_eq_next heq
      exact ⟨_, mem_singleton_self _⟩
  | getMessage id c =>
    cases hfind : w.transport.inboundCache.find id with
    | none =>
      obtain ⟨houtcome, hawaits⟩ : w.transport.Outcome (fun c => w.isWaiting c = true)
          (w.transport.handleCommand messageSize (.getMessage id c)) [] inbox ∧
          (w.transport.handleCommand messageSize (.getMessage id c)).2.Awaits c (.get id) :=
        handleCommand_getMessage_of_not_found h.stores hfind fun c' hc' hlive =>
          absurd ((hclear.2 hfind c' hc').symm.trans hlive) nofun
      refine ⟨inbox, h.quiet houtcome (keeps_of_forall hcommands fun a call _ _ heq => .inr ?_) quiet_nil h.kept⟩
      obtain ⟨rfl, hrequest⟩ := Request.command_eq_getMessage heq
      rw [hrequest]
      exact hawaits
    | some entry =>
      have hsome : (w.transport.inboundCache.find id).isSome := by
        rw [hfind]
        rfl
      refine ⟨_, h.handed (handleCommand_getMessage_of_found h.stores c hfind)
        (keeps_of_forall hcommands fun a call _ _ heq => .inl ?_) (hclear.1 hsome)
        (h.kept.trans ((perm_filter h.stores.listed (h.stores.listed.find hfind)).append_left _))⟩
      obtain ⟨rfl, -⟩ := Request.command_eq_getMessage heq
      exact ⟨_, mem_singleton_self _⟩

theorem Accounted.receive (h : w.Accounted inbox) {text : String}
    (hclear : ∀ entry, unpacked atm w.transport text = some entry → w.ClearMessage entry.1) :
    ∃ inbox', (loop (w.transport.processInboundDidcommMessage messageSize atm text)
      { w with received := w.received ++ (unpacked atm w.transport text).toList }).Accounted inbox' := by
  have hkeeps : ∀ r outs, w.Keeps w.commands r outs := fun r outs c call _ _ hmem => .inl hmem
  unfold unpacked at hclear
  unfold processInboundDidcommMessage unpacked
  by_cases hpacked : (w.transport.skipUnpackMessages || atm.isTsp text) = true
  · rw [if_pos hpacked, if_pos hpacked]
    obtain ⟨outs, houtcome, hquiet⟩ := forwardPacked_outcome h.stores text
    refine ⟨inbox, h.quiet houtcome (hkeeps _ _) hquiet ?_⟩
    rw [toList_none, append_nil]
    exact h.kept
  · rw [if_neg hpacked] at hclear
    rw [if_neg hpacked, if_neg hpacked]
    cases hunpack : atm.unpack text with
    | error e =>
      refine ⟨inbox, h.quiet ⟨rfl, h.stores, fun _ _ _ ha => .inr ha⟩ (hkeeps _ _) quiet_nil ?_⟩
      show (w.received ++ []).Perm _
      rw [append_nil]
      exact h.kept
    | ok entry =>
      rw [hunpack] at hclear
      obtain ⟨hlive, hnew⟩ := hclear entry rfl
      -- the new message goes in front of what is still in the inbox
      have hreceived : (w.received ++ [entry]).Perm (w.delivered.map Prod.snd ++ w.direct ++ entry :: inbox) :=
        (perm_append_singleton entry w.received).trans ((h.kept.cons entry).trans perm_middle.symm)
      cases hrecipient : w.transport.recipient entry.1 with
      | some c =>
        exact ⟨inbox, h.handed (dispatch_of_recipient h.stores entry.2 hrecipient) (hkeeps _ _)
          (hlive c hrecipient) hreceived⟩
      | none =>
        obtain ⟨hdirect, hcached⟩ := @dispatch_of_none _ _ messageSize _
          (fun c => w.isWaiting c = true) _ h.stores _ entry.2 hrecipient
        cases hchannel : w.transport.directChannel with
        | true => exact ⟨inbox, h.channel (hdirect hchannel) (hkeeps _ _) hreceived⟩
        | false =>
          refine ⟨_, h.quiet (hcached hchannel (hnew hrecipient hchannel)) (hkeeps _ _) quiet_nil ?_⟩
          refine hreceived.trans (List.Perm.append_left _ ?_)
          exact (perm_append_singleton entry inbox).symm

theorem Accounted.disconnect (h : w.Accounted inbox) : (loop w.transport.disconnect w).Accounted inbox := by
  obtain ⟨outs, houtcome, hquiet⟩ :=
    @disconnect_outcome _ _ _ (fun c => w.isWaiting c = true) _ h.stores
  exact h.quiet houtcome (fun c call _ _ hmem => .inl hmem) hquiet h.kept

/-- Every event that loses nothing accounts for all messages again. -/
theorem Accounted.step (h : w.Accounted inbox) {event : StreamEvent}
    (hstep : w.step messageSize atm event = some w') (hclear : w.Clear atm event) :
    ∃ inbox', w'.Accounted inbox' := by
  unfold Stream.step at hstep
  cases event with
  | callNext c =>
    obtain ⟨w₁, hcall, rfl⟩ := map_eq_some_iff.1 hstep
    have hafter := h.call hcall
    exact ⟨inbox, hafter.stores, hafter.kept, hafter.once, hafter.gone, hafter.held⟩
  | callGet c msgId => exact ⟨inbox, h.call hstep⟩
  | timeOut c =>
    simp only [ite_none_right_eq_some, some_inj] at hstep
    obtain ⟨-, rfl⟩ := hstep
    exact ⟨inbox, h.setStatus c rfl⟩
  | sendCancel c =>
    obtain ⟨call, -, hpush⟩ := bind_eq_some_iff.1 hstep
    simp only [ite_none_right_eq_some] at hpush
    exact ⟨inbox, (h.setStatus c rfl).push hpush.2⟩
  | enableInboundChannel | disableInboundChannel => exact ⟨inbox, h.push hstep⟩
  | command =>
    cases hcommands : w.commands with
    | nil => simp [hcommands] at hstep
    | cons command rest =>
      simp only [hcommands, some_inj] at hstep
      subst hstep
      refine h.command hcommands (hclear command ?_)
      rw [hcommands]
      rfl
  | receive text =>
    simp only [ite_none_right_eq_some, some_inj] at hstep
    obtain ⟨-, rfl⟩ := hstep
    exact h.receive hclear
  | disconnect =>
    simp only [ite_none_right_eq_some, some_inj] at hstep
    obtain ⟨-, rfl⟩ := hstep
    exact ⟨inbox, h.disconnect⟩
  | connect =>
    simp only [ite_none_left_eq_some, some_inj] at hstep
    obtain ⟨-, rfl⟩ := hstep
    refine ⟨inbox, ⟨h.stores.listed, h.stores.apart⟩, h.kept, h.once, h.gone, fun c call hcall hwaiting => ?_⟩
    rcases h.held c call hcall hwaiting with hcommand | hawaits
    · exact .inl hcommand
    · right
      revert hawaits
      cases call.request <;> exact id

/-- So every run of such events does. -/
theorem Accounted.run (h : w.Accounted inbox) {events : List StreamEvent}
    (hrun : w.run messageSize atm events = some w') (hclear : w.ClearAlong messageSize atm events) :
    ∃ inbox', w'.Accounted inbox' := by
  induction events generalizing w inbox with
  | nil =>
    obtain rfl : w = w' := some_inj.1 hrun
    exact ⟨inbox, h⟩
  | cons event events ih =>
    obtain ⟨w₁, hstep, hrest⟩ := bind_eq_some_iff.1 hrun
    obtain ⟨inbox₁, h₁⟩ := h.step hstep hclear.1
    exact ih h₁ hrest (hclear.2 w₁ hstep)

/-- In every clear run no message is lost and no waiter stranded. -/
theorem run_lossless {limitCount : UInt32} {limitBytes : UInt64} {directChannel skipUnpackMessages : Bool}
    {events : List StreamEvent}
    (hrun : (fresh limitCount limitBytes directChannel skipUnpackMessages).run messageSize atm events = some w)
    (hclear : (fresh limitCount limitBytes directChannel skipUnpackMessages).ClearAlong messageSize atm events) :
    w.Lossless := by
  obtain ⟨inbox, h⟩ := (accounted_fresh limitCount limitBytes directChannel skipUnpackMessages).run hrun hclear
  exact h.lossless

end

/-! ## One request -/

/-- Texts that are the id of their message. -/
def plainAtm : Atm Unit where
  isTsp := fun _ => false
  unpack := fun text => .ok ({ id := text, typ := "note", body := .null }, ())

def start : Stream Unit := fresh 10 1000 false false

/-- One call waits for `a`, and another is given `b` out of the cache before `a` comes in. -/
def twoCalls : List StreamEvent :=
  [.callGet 0 "a", .command, .connect, .receive "b", .callNext 1, .command, .receive "a"]

theorem twoCalls_clear : start.ClearAlong 8 plainAtm twoCalls := by
  refine ⟨trivial, fun w₁ h₁ => ?_⟩
  obtain rfl := some_inj.1 h₁
  refine ⟨fun command hcommand => ?_, fun w₂ h₂ => ?_⟩
  · obtain rfl := some_inj.1 hcommand
    exact ⟨fun hfound => absurd hfound (by decide), fun _ c hc => nomatch hc⟩
  obtain rfl := some_inj.1 h₂
  refine ⟨trivial, fun w₃ h₃ => ?_⟩
  obtain rfl := some_inj.1 h₃
  refine ⟨fun entry hentry => ?_, fun w₄ h₄ => ?_⟩
  · obtain rfl := some_inj.1 hentry
    exact ⟨nofun, fun _ _ => rfl⟩
  obtain rfl := some_inj.1 h₄
  refine ⟨trivial, fun w₅ h₅ => ?_⟩
  obtain rfl := some_inj.1 h₅
  refine ⟨fun command hcommand => ?_, fun w₆ h₆ => ?_⟩
  · obtain rfl := some_inj.1 hcommand
    exact ⟨fun _ => rfl, fun hempty => nomatch hempty⟩
  obtain rfl := some_inj.1 h₆
  refine ⟨fun entry hentry => ?_, fun _ _ => trivial⟩
  obtain rfl := some_inj.1 hentry
  refine ⟨fun c hc => ?_, fun hnone => nomatch hnone⟩
  obtain rfl := some_inj.1 hc
  rfl

theorem request_answered : ∃ w, start.run 8 plainAtm twoCalls = some w ∧ w.Lossless ∧
    w.delivered.length = 2 := by
  have hrun : (start.run 8 plainAtm twoCalls).map (fun w => w.delivered.length) = some 2 := by decide +kernel
  obtain ⟨w, hw, hdelivered⟩ := map_eq_some_iff.1 hrun
  exact ⟨w, hw, run_lossless hw twoCalls_clear, hdelivered⟩

/-- A call for `a` times out and cancels, and then the message comes: it is nowhere any more. Of two calls for the
same id the first waits for an answer that nobody can send. -/
theorem late_message_lost :
    (start.run 8 plainAtm [.callGet 0 "a", .command, .timeOut 0, .sendCancel 0, .command, .connect,
      .receive "a"]).map
      (fun w => (w.received.length, w.delivered.length, w.direct.length, w.transport.inboundCache.messages.length)) =
      some (1, 0, 0, 0) ∧
    (start.run 8 plainAtm [.callGet 0 "a", .command, .callGet 1 "a", .command]).map
      (fun w => (w.isWaiting 0, w.commands.length, w.transport.nextRequests.length,
        w.transport.inboundCache.wantedList.values)) = some (true, 0, 0, [1]) ∧
    ¬ ∀ events w, start.run 8 plainAtm events = some w → w.Lossless := by
  have hlost : (start.run 8 plainAtm
      [.callGet 0 "a", .command, .timeOut 0, .sendCancel 0, .command, .connect, .receive "a"]).map
      (fun w => (w.received.length, w.delivered.length, w.direct.length, w.transport.inboundCache.messages.length)) =
      some (1, 0, 0, 0) := by decide +kernel
  refine ⟨hlost, by decide +kernel, fun hall => ?_⟩
  obtain ⟨w, hw, hlengths⟩ := map_eq_some_iff.1 hlost
  have hperm := (hall _ w hw).kept.length_eq
  simp only [Prod.mk.injEq] at hlengths
  simp only [length_append, length_map, OrdMap.values] at hperm
  have hlength : w.transport.inboundCache.messages.entries.length = 0 := hlengths.2.2.2
  omega

end Stream

end AffinidiTdk.LiveStream
