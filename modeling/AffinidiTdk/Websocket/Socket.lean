/-
The connections of the mediator: `handle_socket`, from the admission tests to the release of what
was reserved, one access to shared state at a time, with the streaming task and its command queue
beside it.
-/
import AffinidiTdk.Websocket.Streaming
import Mathlib.Data.Finset.Erase

namespace AffinidiTdk.Websocket

open Option

/-- The settings `handle_socket` reads. -/
structure Limits where
  maxWebsocketConnections : ℕ
  maxWebsocketConnectionsPerDid : ℕ
  streamingTask : Bool

/-- Room on the streaming task's command channel. -/
def commandCapacity : ℕ := 10

/-- Where an invocation of `handle_socket` stands. On the way out, `released` says whether its slot
of the global count was given back. -/
inductive SocketPc
  | start
  | counted (current : ℕ)
  | refused
  | reserved (perDidCount : ℕ)
  | admitted
  | registered
  | flushing
  | looping
  | deregistering
  | releasing
  | leaving (released : Bool)
  | dropping (released : Bool)
  | returned (released : Bool)
  deriving DecidableEq

/-- An invocation: what its session says, and what the streaming task has done with it. -/
structure Socket where
  did : String
  didHash : String
  expiresAt : ℕ
  tspMode : Bool
  pc : SocketPc
  processed : Bool
  closed : Bool
  deriving DecidableEq

/-- What the invocations share. -/
structure Shared where
  activeWebsocketCount : ℕ
  wsConnectionsPerDid : String → Option ℕ
  queue : List StreamingUpdate
  task : StreamingTask

instance : Inhabited Shared := ⟨0, fun _ => none, [], default⟩

/-- What an invocation meets when it goes on: the command channel takes its update or is closed, a
clock reading, the socket's fate in the flush, the end of the loop for its own reason, or `Close`. -/
inductive SocketEvent
  | next
  | send (accepted : Bool)
  | clock (epoch : ℕ)
  | flushed (gone : Bool)
  | exit
  | close
  deriving DecidableEq

/-- An update on the command channel, if there is room for it. -/
def Shared.enqueue (sh : Shared) (update : StreamingUpdate) : Option Shared :=
  if sh.queue.length < commandCapacity then some { sh with queue := sh.queue ++ [update] } else none

/-- The reservation of a per-DID slot. -/
def Shared.reserve (sh : Shared) (didHash : String) : Shared :=
  { sh with
    wsConnectionsPerDid := Function.update sh.wsConnectionsPerDid didHash
      (some ((sh.wsConnectionsPerDid didHash).getD 0 + 1)) }

/-- The first half of the guard's drop. -/
def Shared.countDown (sh : Shared) (didHash : String) : Shared :=
  { sh with
    wsConnectionsPerDid := Function.update sh.wsConnectionsPerDid didHash
      ((sh.wsConnectionsPerDid didHash).map fun count => count - 1) }

/-- The second half: an entry that stands at zero goes. -/
def Shared.removeIdle (sh : Shared) (didHash : String) : Shared :=
  if sh.wsConnectionsPerDid didHash = some 0 then
    { sh with wsConnectionsPerDid := Function.update sh.wsConnectionsPerDid didHash none }
  else sh

def Shared.giveBack (sh : Shared) : Shared := { sh with activeWebsocketCount := sh.activeWebsocketCount - 1 }

/-- One step of `handle_socket`. -/
def handleSocket (limits : Limits) (sh : Shared) (channel : ℕ) (s : Socket) :
    SocketPc → SocketEvent → Option (Shared × SocketPc)
  | .start, .next =>
    some ({ sh with activeWebsocketCount := sh.activeWebsocketCount + 1 }, .counted sh.activeWebsocketCount)
  | .counted current, .next =>
    if current ≥ limits.maxWebsocketConnections then some (sh.giveBack, .refused)
    else some (sh.reserve s.didHash, .reserved ((sh.wsConnectionsPerDid s.didHash).getD 0 + 1))
  | .refused, .next => some (sh, .returned true)
  | .reserved perDidCount, .next =>
    if limits.maxWebsocketConnectionsPerDid ≠ 0 ∧ perDidCount > limits.maxWebsocketConnectionsPerDid then
      some (sh.giveBack, .leaving true)
    else some (sh, .admitted)
  | .admitted, .send accepted =>
    if limits.streamingTask then
      if accepted then
        (sh.enqueue ⟨s.didHash, .register channel s.did⟩).map fun sh => (sh, .registered)
      else some (sh, .leaving false)
    else some (sh, .registered)
  | .registered, .clock epoch =>
    if s.expiresAt ≤ epoch then some (sh, .leaving false)
    else some (sh, if s.tspMode then .flushing else .looping)
  | .flushing, .flushed gone => some (sh, if gone then .deregistering else .looping)
  | .looping, .exit => some (sh, .deregistering)
  | .looping, .close => if s.closed then some (sh, .releasing) else none
  | .deregistering, .send accepted =>
    if limits.streamingTask && accepted then
      (sh.enqueue ⟨s.didHash, .deregister⟩).map fun sh => (sh, .releasing)
    else some (sh, .releasing)
  | .releasing, .next => some (sh.giveBack, .leaving true)
  | .leaving released, .next => some (sh.countDown s.didHash, .dropping released)
  | .dropping released, .next => some (sh.removeIdle s.didHash, .returned released)
  | _, _ => none

/-- The shared tables and the sockets. -/
structure World where
  shared : Shared
  sockets : List Socket

instance : Inhabited World := ⟨default, []⟩

/-- A turn: a connection is accepted, an invocation goes on, or the streaming task takes a command,
dispatches a message or ends a redelivery; live delivery is switched by other handlers. -/
inductive Turn
  | connect (did didHash : String) (expiresAt : ℕ) (tspMode : Bool)
  | socket (i : ℕ) (event : SocketEvent)
  | command
  | dispatch (payload : PubSubRecord)
  | liveDelivery (didHash : String) (active : Bool)
  | redelivered (didHash : String)

/-- The receiver is dropped with the invocation's locals, before its guard is. -/
def SocketPc.receives : SocketPc → Bool
  | .dropping _ => false
  | .returned _ => false
  | _ => true

def World.receiving (w : World) (channel : ℕ) : Bool := ((w.sockets[channel]?).map fun s => s.pc.receives).getD false

/-- `Close` reaches the connection. -/
def applyEffect (sockets : List Socket) : StreamingEffect → List Socket
  | .close channel => sockets.modify channel fun s => { s with closed := true }
  | .redeliver _ _ => sockets

/-- The connection a command registers. -/
def markProcessed (sockets : List Socket) : StreamingUpdateState → List Socket
  | .register channel _ => sockets.modify channel fun s => { s with processed := true }
  | _ => sockets

def World.step (limits : Limits) (w : World) : Turn → Option World
  | .connect did didHash expiresAt tspMode =>
    some { w with sockets := w.sockets ++ [⟨did, didHash, expiresAt, tspMode, .start, false, false⟩] }
  | .socket i event => do
    let s ← w.sockets[i]?
    let (shared, pc) ← handleSocket limits w.shared i s s.pc event
    return ⟨shared, w.sockets.set i { s with pc }⟩
  | .command =>
    match w.shared.queue with
    | [] => none
    | update :: queue =>
      let (task, effects) := handleUpdate w.shared.task update
      some ⟨{ w.shared with queue, task }, effects.foldl applyEffect (markProcessed w.sockets update.state)⟩
  | .dispatch payload =>
    some { w with shared := { w.shared with task := (dispatchPayload w.receiving w.shared.task payload).1 } }
  | .liveDelivery didHash active =>
    (w.shared.enqueue ⟨didHash, if active then .start else .stop⟩).map fun shared => { w with shared }
  | .redelivered didHash =>
    let task := w.shared.task
    some { w with
      shared := { w.shared with task := { task with replayInProgress := task.replayInProgress.erase didHash } } }

/-- The turns one after the other, as far as they are possible. -/
def World.steps (limits : Limits) : World → List Turn → Option World
  | w, [] => some w
  | w, t :: ts => (w.step limits t).bind fun w => w.steps limits ts

/-- The states of a run, turn by turn. -/
inductive Run (limits : Limits) (ok : World → Turn → Prop) : World → Prop
  | start : Run limits ok default
  | turn {w w' : World} (h : Run limits ok w) (t : Turn) (hok : ok w t) (hstep : w.step limits t = some w') :
      Run limits ok w'

/-! ## Inversion -/

theorem Shared.enqueue_eq_some {sh sh' : Shared} {update : StreamingUpdate} (h : sh.enqueue update = some sh') :
    sh.queue.length < commandCapacity ∧ sh' = { sh with queue := sh.queue ++ [update] } := by
  unfold Shared.enqueue at h
  split at h
  · rename_i hroom
    exact ⟨hroom, (some.inj h).symm⟩
  · cases h

variable {limits : Limits} {w w' : World}

theorem step_socket {i : ℕ} {event : SocketEvent} (h : w.step limits (.socket i event) = some w') : ∃ s sh pc,
    w.sockets[i]? = some s ∧ handleSocket limits w.shared i s s.pc event = some (sh, pc) ∧ w' =
    ⟨sh, w.sockets.set i { s with pc }⟩ := by
  simp only [World.step, bind_eq_bind, bind_eq_some_iff] at h
  obtain ⟨s, hs, ⟨sh, pc⟩, hmove, heq⟩ := h
  exact ⟨s, sh, pc, hs, hmove, (some.inj heq).symm⟩

theorem step_command (h : w.step limits .command = some w') : ∃ update queue, w.shared.queue = update :: queue ∧
    w' = ⟨{ w.shared with queue, task := (handleUpdate w.shared.task update).1 },
    (handleUpdate w.shared.task update).2.foldl applyEffect (markProcessed w.sockets update.state)⟩ := by
  simp only [World.step] at h
  split at h
  · cases h
  · rename_i update queue hqueue
    exact ⟨update, queue, hqueue, (some.inj h).symm⟩

theorem step_liveDelivery {didHash : String} {active : Bool}
    (h : w.step limits (.liveDelivery didHash active) = some w') :
    w' =
    { w with shared := { w.shared with queue := w.shared.queue ++ [⟨didHash, if active then .start else .stop⟩] }
    } := by
  obtain ⟨sh, henqueue, rfl⟩ := map_eq_some_iff.1 h
  obtain ⟨-, rfl⟩ := Shared.enqueue_eq_some henqueue
  rfl

/-- The command registers this connection. -/
def StreamingUpdateState.registers (i : ℕ) : StreamingUpdateState → Bool
  | .register channel _ => channel = i
  | _ => false

theorem getElem?_markProcessed (sockets : List Socket) (state : StreamingUpdateState) (i : ℕ) :
    (markProcessed sockets state)[i]? =
      (sockets[i]?).map fun s => { s with processed := s.processed || state.registers i } := by
  cases state with
  | register channel did =>
    simp only [markProcessed, List.getElem?_modify, StreamingUpdateState.registers]
    by_cases hi : channel = i
    · simp [hi]
    · simp [hi]
  | start | stop | deregister => simp [markProcessed, StreamingUpdateState.registers]

theorem getElem?_effects (effects : List StreamingEffect) (sockets : List Socket) (i : ℕ) :
    (effects.foldl applyEffect sockets)[i]? =
      (sockets[i]?).map fun s => { s with closed := s.closed || decide (.close i ∈ effects) } := by
  induction effects generalizing sockets with
  | nil => simp
  | cons effect effects ih =>
    rw [List.foldl_cons, ih]
    cases effect with
    | close channel =>
      simp only [applyEffect, List.getElem?_modify]
      by_cases hi : channel = i
      · cases sockets[i]? <;> simp [hi]
      · simp [hi, Ne.symm hi]
    | redeliver channel didHash => simp [applyEffect]

end AffinidiTdk.Websocket
