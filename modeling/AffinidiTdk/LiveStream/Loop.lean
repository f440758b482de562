/-
The loop of the SDK's socket task as a whole (`WebSocketTransport::run` in `websockets/websocket.rs`): the channel of
its commands with the callers that send on it (`ATM::send_message`), the timers, and the socket that comes and goes.
The timers may fire at any moment after they are armed, and what the network does is part of each step: whether a
socket opens, whether a write succeeds, which frame comes in.
-/
import AffinidiTdk.LiveStream.Delivery
import AffinidiTdk.Lib.Machine

namespace AffinidiTdk.LiveStream

open Option

open Machine (Taken Run outputs)

/-! ## The loop -/

/-- The commands the task takes. -/
inductive LoopCommand (Sender : Type)
  | notifyConnection (sender : Sender)
  | sendMessage (message : String)
  | stop
  | request (command : WebSocketCommand Sender)
  deriving DecidableEq

/-- What happens outside of the loop: a message is on the channel, so that its `send_message` returns; it is written to
the socket; a ping or a pong is, or a close; a caller is told that there is a connection, or is handed something. -/
inductive LoopOutput (Metadata Sender : Type)
  | accepted (message : String)
  | written (message : String)
  | ping
  | pong
  | closed
  | notified (sender : Sender)
  | handed (outgoing : Outgoing Metadata Sender)

/-- The frames of the socket. -/
inductive Frame
  | text (text : String)
  | binary (data : List UInt8)
  | ping
  | pong
  | close
  | other

/-- What comes from the socket: a frame, a reset, or another error. -/
inductive Inbound
  | frame (frame : Frame)
  | reset
  | error

/-- Enabling live delivery: packing the message may fail; without a channel it is posted. -/
inductive Toggle
  | unpacked
  | packed (message : String) (posted : Bool)

/-- How an attempt to connect goes: no tokens, no socket, or a socket, at a time. -/
inductive Connection
  | unauthenticated
  | unreachable (accessExpiresAt : ℕ)
  | opened (accessExpiresAt now : ℕ) (toggle : Toggle)

/-- The branches of the `select!`, each with what the network does in it. -/
inductive Branch
  | reconnect (connection : Connection)
  | refresh
  | watchdog
  | recv (written : Bool)
  | inbound (inbound : Inbound)

/-- A command is put on the channel; the profile stores the channel or gives it up; the loop takes a branch; it ends
after a stop, or because every sender is gone. -/
inductive LoopEvent (Sender : Type)
  | accept (command : LoopCommand Sender)
  | register (stored : Bool)
  | select (branch : Branch)
  | finish
  | hangUp

/-- The loop takes branches, waits for room in its own channel, has left for its end, or is gone. -/
inductive LoopStatus
  | running
  | blocked
  | closing
  | ended
  deriving DecidableEq

/-- The state of the task between two turns of its loop. -/
structure WebSocketLoop (Metadata Sender : Type) where
  transport : WebSocketTransport Metadata Sender
  connectDelay : ℕ := 0
  connectDelayTimer : Option ℕ := none
  awaitingPong : Bool := false
  accessExpiresAt : Option ℕ := none
  refreshDeadline : Option ℕ := none
  notifyConnection : Option Sender := none
  skipToggleLiveDelivery : Bool := false
  registered : Bool := false
  queue : List (LoopCommand Sender) := []
  status : LoopStatus := .running

/-- 80% of what is left of the token's lifetime. -/
def refreshAfterSecs (ttl : ℕ) : ℕ := ttl * 4 / 5

namespace WebSocketLoop

variable {Metadata Sender : Type} (messageSize : UInt64) (atm : Atm Metadata) (lossy : List UInt8 → String)

def connected (loop : WebSocketLoop Metadata Sender) : Bool := loop.transport.webSocket

/-- At the head of the loop: without a socket, the timer of the next attempt is armed. -/
def armTimer (loop : WebSocketLoop Metadata Sender) : WebSocketLoop Metadata Sender :=
  if loop.connected = false ∧ loop.connectDelayTimer = none then
    { loop with connectDelayTimer := some loop.connectDelay }
  else loop

def backoffDelay (loop : WebSocketLoop Metadata Sender) : WebSocketLoop Metadata Sender :=
  let delay := if loop.connectDelay = 0 then 1 else if loop.connectDelay < 60 then min (loop.connectDelay * 2) 60 else 60
  { loop with connectDelay := delay, connectDelayTimer := none }

/-- The socket is given up, and every waiting request is told. -/
def dropSocket (loop : WebSocketLoop Metadata Sender) :
    List (LoopOutput Metadata Sender) × WebSocketLoop Metadata Sender :=
  let (outgoing, transport) := loop.transport.disconnect
  (outgoing.map .handed, { loop with transport })

def armRefresh (now : ℕ) (loop : WebSocketLoop Metadata Sender) : Option ℕ :=
  loop.accessExpiresAt.map fun expiresAt => refreshAfterSecs (expiresAt - now)

/-- There is a socket again. -/
def establish (now : ℕ) (loop : WebSocketLoop Metadata Sender) :
    List (LoopOutput Metadata Sender) × WebSocketLoop Metadata Sender :=
  let transport := { loop.transport with webSocket := true }
  let refreshDeadline := loop.armRefresh now
  (loop.notifyConnection.toList.map .notified, { loop with
    transport, refreshDeadline
    connectDelay := 0
    connectDelayTimer := none
    awaitingPong := false
    notifyConnection := none })

/-- `toggle_live_delivery` sends its message as any caller does, here from within the loop that empties the channel. -/
def handleConnection (loop : WebSocketLoop Metadata Sender) :
    Connection → List (LoopOutput Metadata Sender) × WebSocketLoop Metadata Sender
  | .unauthenticated => ([], loop.backoffDelay)
  | .unreachable accessExpiresAt => ([], backoffDelay { loop with accessExpiresAt := some accessExpiresAt })
  | .opened accessExpiresAt now toggle =>
    let loop := { loop with accessExpiresAt := some accessExpiresAt }
    if loop.skipToggleLiveDelivery then loop.establish now
    else
      match toggle with
      | .unpacked => ([.closed], loop.backoffDelay)
      | .packed message posted =>
        if loop.registered then
          if loop.queue.length < commandCapacity then
            let (out, loop) := establish now { loop with queue := loop.queue ++ [.sendMessage message] }
            (.accepted message :: out, loop)
          else ([], { loop with status := .blocked })
        else if posted then loop.establish now
        else ([.closed], loop.backoffDelay)

/-- The token is refreshed, successfully or not, and the socket replaced at once. -/
def refresh (loop : WebSocketLoop Metadata Sender) :
    List (LoopOutput Metadata Sender) × WebSocketLoop Metadata Sender :=
  let (out, loop) := loop.dropSocket
  (.closed :: out, { loop with refreshDeadline := none, connectDelay := 0, connectDelayTimer := none })

def watchdog (loop : WebSocketLoop Metadata Sender) :
    List (LoopOutput Metadata Sender) × WebSocketLoop Metadata Sender :=
  if loop.awaitingPong then
    let (out, loop) := loop.dropSocket
    (.closed :: out, loop.backoffDelay)
  else ([.ping], loop)

def handleCommand (written : Bool) (loop : WebSocketLoop Metadata Sender) :
    LoopCommand Sender → List (LoopOutput Metadata Sender) × WebSocketLoop Metadata Sender
  | .notifyConnection sender =>
    if loop.connected then ([.notified sender], loop) else ([], { loop with notifyConnection := some sender })
  | .sendMessage message => (if loop.connected ∧ written then [.written message] else [], loop)
  | .stop => (if loop.connected then [.closed] else [], { loop with status := .closing })
  | .request command =>
    let (outgoing, transport) := WebSocketTransport.handleCommand messageSize loop.transport command
    (outgoing.map .handed, { loop with transport })

def processInboundDidcommMessage (loop : WebSocketLoop Metadata Sender) (message : String) :
    List (LoopOutput Metadata Sender) × WebSocketLoop Metadata Sender :=
  let (outgoing, transport) := WebSocketTransport.processInboundDidcommMessage messageSize atm message loop.transport
  (outgoing.map .handed, { loop with transport })

/-- The socket is gone, and the next attempt waits longer. -/
def loseSocket (loop : WebSocketLoop Metadata Sender) :
    List (LoopOutput Metadata Sender) × WebSocketLoop Metadata Sender :=
  let (out, loop) := loop.dropSocket
  (out, loop.backoffDelay)

def handleInboundMessage (loop : WebSocketLoop Metadata Sender) :
    Inbound → List (LoopOutput Metadata Sender) × WebSocketLoop Metadata Sender
  | .frame (.text text) => loop.processInboundDidcommMessage messageSize atm text
  | .frame (.binary data) => loop.processInboundDidcommMessage messageSize atm (lossy data)
  | .frame .ping => ([.pong], loop)
  | .frame .pong => ([], { loop with awaitingPong := false })
  | .frame .close => loop.loseSocket
  | .frame .other => ([], loop)
  | .reset => loop.loseSocket
  | .error => loop.loseSocket

/-- One branch of the `select!`, where it is not disabled. -/
def selectBranch (loop : WebSocketLoop Metadata Sender) :
    Branch → Option (List (LoopOutput Metadata Sender) × WebSocketLoop Metadata Sender)
  | .reconnect connection =>
    if loop.connected = false ∧ loop.connectDelayTimer.isSome then some (loop.handleConnection connection) else none
  | .refresh => if loop.connected ∧ loop.refreshDeadline.isSome then some loop.refresh else none
  | .watchdog => if loop.connected then some loop.watchdog else none
  | .recv written =>
    match loop.queue with
    | [] => none
    | command :: queue => some (handleCommand messageSize written { loop with queue } command)
  | .inbound inbound =>
    if loop.connected ∧ loop.transport.inboundCache.isFull = false then
      some (loop.handleInboundMessage messageSize atm lossy inbound)
    else none

/-- What a caller is told about a command on the channel: the sending of a message is over for it. -/
def acknowledged : LoopCommand Sender → List (LoopOutput Metadata Sender)
  | .sendMessage message => [.accepted message]
  | _ => []

/-- A step of the loop or of its surroundings. When the loop ends, what is in its channel is dropped. -/
def step (loop : WebSocketLoop Metadata Sender) :
    LoopEvent Sender → Option (List (LoopOutput Metadata Sender) × WebSocketLoop Metadata Sender)
  | .accept command =>
    if loop.status ≠ .ended ∧ loop.queue.length < commandCapacity then
      some (acknowledged command, { loop with queue := loop.queue ++ [command] })
    else none
  | .register stored => some ([], { loop with registered := stored })
  | .select branch =>
    if loop.status = .running then loop.armTimer.selectBranch messageSize atm lossy branch else none
  | .finish => if loop.status = .closing then some ([], { loop with status := .ended, queue := [] }) else none
  | .hangUp =>
    if loop.status = .running ∧ loop.queue = [] ∧ loop.registered = false then
      some ([], { loop with status := .ended })
    else none

/-- `start` and `start_with_options`. -/
def start (limitCount : UInt32) (limitBytes : UInt64) (directChannel skipToggleLiveDelivery skipUnpackMessages : Bool) :
    WebSocketLoop Metadata Sender where
  transport := {
    inboundCache := { fetchCacheLimitCount := limitCount, fetchCacheLimitBytes := limitBytes }
    directChannel
    skipUnpackMessages }
  skipToggleLiveDelivery

end WebSocketLoop

/-- A step of the loop, as it stands in a run. -/
abbrev LoopStep (Metadata Sender : Type) :=
  Taken (WebSocketLoop Metadata Sender) (LoopEvent Sender) (LoopOutput Metadata Sender)

/-! ## Inversion -/

namespace WebSocketLoop

variable {Metadata Sender : Type} {messageSize : UInt64} {atm : Atm Metadata} {lossy : List UInt8 → String}
variable {loop : WebSocketLoop Metadata Sender} {r : List (LoopOutput Metadata Sender) × WebSocketLoop Metadata Sender}

theorem armTimer_eq (loop : WebSocketLoop Metadata Sender) :
    ∃ timer, loop.armTimer = { loop with connectDelayTimer := timer } := by
  unfold armTimer
  split_ifs
  · exact ⟨_, rfl⟩
  · exact ⟨loop.connectDelayTimer, rfl⟩

theorem armTimer_isSome (h : loop.connected = false) : loop.armTimer.connectDelayTimer.isSome = true := by
  unfold armTimer
  split_ifs with htimer
  · rfl
  · rw [isSome_iff_ne_none]
    exact fun hnone => htimer ⟨h, hnone⟩

theorem step_accept {command : LoopCommand Sender} (h : step messageSize atm lossy loop (.accept command) = some r) :
    (loop.status ≠ .ended ∧ loop.queue.length < commandCapacity) ∧
      r = (acknowledged command, { loop with queue := loop.queue ++ [command] }) := by
  obtain ⟨hroom, heq⟩ := ite_none_right_eq_some.1 h
  exact ⟨hroom, (some.inj heq).symm⟩

theorem step_select {branch : Branch} (h : step messageSize atm lossy loop (.select branch) = some r) :
    loop.status = .running ∧ ∃ timer,
      selectBranch messageSize atm lossy { loop with connectDelayTimer := timer } branch = some r := by
  obtain ⟨hrunning, hselect⟩ := ite_none_right_eq_some.1 h
  obtain ⟨timer, harm⟩ := armTimer_eq loop
  rw [harm] at hselect
  exact ⟨hrunning, timer, hselect⟩

theorem selectBranch_reconnect {connection : Connection}
    (h : selectBranch messageSize atm lossy loop (.reconnect connection) = some r) :
    loop.connected = false ∧ r = loop.handleConnection connection := by
  obtain ⟨hguard, heq⟩ := ite_none_right_eq_some.1 h
  exact ⟨hguard.1, (some.inj heq).symm⟩

theorem selectBranch_refresh (h : selectBranch messageSize atm lossy loop .refresh = some r) : r = loop.refresh := by
  obtain ⟨-, heq⟩ := ite_none_right_eq_some.1 h
  exact (some.inj heq).symm

theorem selectBranch_watchdog (h : selectBranch messageSize atm lossy loop .watchdog = some r) :
    loop.connected = true ∧ r = loop.watchdog := by
  obtain ⟨hguard, heq⟩ := ite_none_right_eq_some.1 h
  exact ⟨hguard, (some.inj heq).symm⟩

theorem selectBranch_recv {written : Bool} (h : selectBranch messageSize atm lossy loop (.recv written) = some r) :
    ∃ command queue, loop.queue = command :: queue ∧
      r = handleCommand messageSize written { loop with queue } command := by
  unfold selectBranch at h
  cases hqueue : loop.queue with
  | nil =>
    simp only [hqueue] at h
    cases h
  | cons command queue =>
    simp only [hqueue] at h
    exact ⟨command, queue, rfl, (some.inj h).symm⟩

theorem selectBranch_inbound {inbound : Inbound}
    (h : selectBranch messageSize atm lossy loop (.inbound inbound) = some r) :
    r = loop.handleInboundMessage messageSize atm lossy inbound := by
  obtain ⟨-, heq⟩ := ite_none_right_eq_some.1 h
  exact (some.inj heq).symm

/-- What an attempt comes to: no socket, a socket, a socket with one more message on the channel, or a loop that waits
for room in it. -/
theorem handleConnection_cases (loop : WebSocketLoop Metadata Sender) (connection : Connection) :
    (∃ expiry, (∀ expiry now message, connection ≠ .opened expiry now (.packed message true)) ∧
      ((loop.handleConnection connection).1 = [] ∨ (loop.handleConnection connection).1 = [.closed]) ∧
      (loop.handleConnection connection).2 = backoffDelay { loop with accessExpiresAt := expiry }) ∨
    (∃ expiry now toggle, connection = .opened expiry now toggle ∧
      loop.handleConnection connection = establish now { loop with accessExpiresAt := some expiry } ∧
      (loop.skipToggleLiveDelivery = true ∨ loop.registered = false)) ∨
    (∃ expiry now message posted, connection = .opened expiry now (.packed message posted) ∧
      loop.skipToggleLiveDelivery = false ∧ loop.registered = true ∧ loop.queue.length < commandCapacity ∧
      loop.handleConnection connection = (.accepted message :: loop.notifyConnection.toList.map .notified,
        (establish now { loop with
          accessExpiresAt := some expiry
          queue := loop.queue ++ [.sendMessage message] }).2)) ∨
    ∃ expiry now message posted, connection = .opened expiry now (.packed message posted) ∧
      loop.skipToggleLiveDelivery = false ∧ loop.registered = true ∧ ¬ loop.queue.length < commandCapacity ∧
      loop.handleConnection connection = ([], { loop with accessExpiresAt := some expiry, status := .blocked }) := by
  cases connection with
  | unauthenticated => exact .inl ⟨loop.accessExpiresAt, fun _ _ _ h => (by cases h), .inl rfl, rfl⟩
  | unreachable expiry => exact .inl ⟨some expiry, fun _ _ _ h => (by cases h), .inl rfl, rfl⟩
  | opened expiry now toggle =>
    by_cases hskip : loop.skipToggleLiveDelivery = true
    · exact .inr (.inl ⟨expiry, now, toggle, rfl, if_pos hskip, .inl hskip⟩)
    have hpackedCase : loop.handleConnection (.opened expiry now toggle) = _ := if_neg hskip
    rw [Bool.not_eq_true] at hskip
    cases toggle with
    | unpacked =>
      rw [hpackedCase]
      exact .inl ⟨some expiry, fun _ _ _ h => (by cases h), .inr rfl, rfl⟩
    | packed message posted =>
      by_cases hregistered : loop.registered = true
      · by_cases hroom : loop.queue.length < commandCapacity
        · refine .inr (.inr (.inl ⟨expiry, now, message, posted, rfl, hskip, hregistered, hroom, ?_⟩))
          rw [hpackedCase]
          exact (if_pos hregistered).trans (if_pos hroom)
        · refine .inr (.inr (.inr ⟨expiry, now, message, posted, rfl, hskip, hregistered, hroom, ?_⟩))
          rw [hpackedCase]
          exact (if_pos hregistered).trans (if_neg hroom)
      · have hpostedCase : loop.handleConnection (.opened expiry now (.packed message posted)) = _ :=
          hpackedCase.trans (if_neg hregistered)
        cases posted with
        | true => exact .inr (.inl ⟨expiry, now, _, rfl, hpostedCase, .inr (Bool.not_eq_true _ ▸ hregistered)⟩)
        | false =>
          rw [hpostedCase]
          exact .inl ⟨some expiry, fun _ _ _ h => (by cases h), .inr rfl, rfl⟩

end WebSocketLoop

/-! ## A loop for examples -/

/-- A frame is never TSP, and no text unpacks. -/
def noAtm : Atm Unit where
  isTsp _ := false
  unpack _ := .error "no message"

/-- A loop that skips live delivery, before it connects and after. -/
def idleLoop : WebSocketLoop Unit ℕ := .start 100 1000000 false true false

def openedLoop : WebSocketLoop Unit ℕ :=
  (idleLoop.armTimer.handleConnection (.opened 900 0 .unpacked)).2

end AffinidiTdk.LiveStream
