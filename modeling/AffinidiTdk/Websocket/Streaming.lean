/-
The WebSocket streaming task: which connection gets the live messages of a DID, and what each
command of its queue does to that. A connection is named by a number, and so is the channel to it.
-/
import Mathlib.Data.Finset.Insert

namespace AffinidiTdk.Websocket

/-- One registered streaming client for a DID. -/
structure ClientEntry where
  tx : ℕ
  active : Bool
  deriving DecidableEq

/-- What a socket tells the streaming task. -/
inductive StreamingUpdateState
  | register (channel : ℕ) (did : String)
  | start
  | stop
  | deregister
  deriving DecidableEq

/-- A command to the streaming task. -/
structure StreamingUpdate where
  didHash : String
  state : StreamingUpdateState
  deriving DecidableEq

/-- The task's own state: the clients by DID hash, and the DIDs whose inbox is being redelivered. -/
structure StreamingTask where
  clients : String → Option ClientEntry
  replayInProgress : Finset String

instance : Inhabited StreamingTask := ⟨fun _ => none, ∅⟩

/-- What a command makes the task do to a connection. -/
inductive StreamingEffect
  | close (channel : ℕ)
  | redeliver (channel : ℕ) (didHash : String)
  deriving DecidableEq

/-- The newest connection of a DID wins: the one before it is told to close, and what it may have
missed is redelivered, unless a redelivery for the DID is still running. -/
def handleRegistration (task : StreamingTask) (didHash did : String) (channel : ℕ) :
    StreamingTask × List StreamingEffect :=
  if did.isEmpty || didHash.isEmpty then (task, [.close channel])
  else
    let clients := Function.update task.clients didHash (some ⟨channel, false⟩)
    match task.clients didHash with
    | none => ({ task with clients }, [])
    | some old =>
      if didHash ∈ task.replayInProgress then ({ task with clients }, [.close old.tx])
      else
        (⟨clients, insert didHash task.replayInProgress⟩, [.close old.tx, .redeliver channel didHash])

/-- A registration is refused, or puts the connection in the place of the DID's last one. -/
theorem handleRegistration_cases (task : StreamingTask) (didHash did : String) (channel : ℕ) :
    handleRegistration task didHash did channel = (task, [.close channel]) ∨
    ((handleRegistration task didHash did channel).1.clients = Function.update task.clients didHash
    (some ⟨channel, false⟩) ∧ ∀ i, .close i ∈ (handleRegistration task didHash did channel).2 ↔ ∃ old,
    task.clients didHash = some old ∧ old.tx = i) := by
  unfold handleRegistration
  split
  · exact .inl rfl
  · refine .inr ?_
    cases hold : task.clients didHash with
    | none => exact ⟨rfl, by simp⟩
    | some old =>
      simp only
      split
      · exact ⟨rfl, by simp [eq_comm]⟩
      · exact ⟨rfl, by simp [eq_comm]⟩

def setActive (task : StreamingTask) (didHash : String) (active : Bool) : StreamingTask :=
  { task with
    clients := Function.update task.clients didHash ((task.clients didHash).map fun entry => { entry with active }) }

/-- One command from the queue. A `Deregister` names a DID and no connection. -/
def handleUpdate (task : StreamingTask) (update : StreamingUpdate) : StreamingTask × List StreamingEffect :=
  match update.state with
  | .register channel did => handleRegistration task update.didHash did channel
  | .start => (setActive task update.didHash true, [])
  | .stop => (setActive task update.didHash false, [])
  | .deregister => ({ task with clients := Function.update task.clients update.didHash none }, [])

/-- A message that was published for a DID. -/
structure PubSubRecord where
  didHash : String
  message : String
  forceDelivery : Bool

/-- A live message: it goes to the DID's client, and a client whose receiver is gone is dropped. -/
def dispatchPayload (receiving : ℕ → Bool) (task : StreamingTask) (payload : PubSubRecord) :
    StreamingTask × Option (ℕ × String) :=
  match task.clients payload.didHash with
  | none => (task, none)
  | some entry =>
    if payload.forceDelivery || entry.active then
      if receiving entry.tx then (task, some (entry.tx, payload.message))
      else ({ task with clients := Function.update task.clients payload.didHash none }, none)
    else (task, none)

end AffinidiTdk.Websocket
