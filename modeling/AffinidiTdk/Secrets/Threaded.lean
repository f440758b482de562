/-
The threaded secrets resolver (`affinidi-secrets-resolver`, `lib.rs`, `task.rs`): callers put commands into a
bounded channel without waiting, and a task takes them out one at a time. What a method does when the channel has
no room is its own.
-/
import AffinidiTdk.Secrets.Resolver

namespace AffinidiTdk.Secrets

open SeqObject

/-! ## The task -/

/-- A sender of a reply is the call that waits for it. -/
inductive SecretTaskCommand
  | addSecret (secret : Secret)
  | addSecrets (secrets : List Secret)
  | removeSecret (keyId : String)
  | getSecret (keyId : String) (tx : ℕ)
  | findSecrets (keys : List String) (tx : ℕ)
  | secretsStored (tx : ℕ)
  | terminate
  deriving DecidableEq

/-- What the task sends to a call that waits. -/
inductive Answer
  | secret (found : Option Secret)
  | found (ids : List String)
  | count (n : ℕ)

/-- The cache after a command, what was sent for it, and whether the task ends. -/
structure Handled where
  cache : SecretMap
  sent : Option (ℕ × Answer)
  exitFlag : Bool

def handleMsg (secretsCache : SecretMap) : Option SecretTaskCommand → Handled
  | some (.addSecret secret) => ⟨secretsCache.insert secret.id secret, none, false⟩
  | some (.addSecrets secrets) =>
    ⟨secrets.foldl (fun cache secret => cache.insert secret.id secret) secretsCache, none, false⟩
  | some (.removeSecret keyId) => ⟨secretsCache.erase keyId, none, false⟩
  | some (.getSecret keyId tx) => ⟨secretsCache, some (tx, .secret (secretsCache.get? keyId)), false⟩
  | some (.findSecrets keys tx) =>
    ⟨secretsCache, some (tx, .found (keys.filter fun sid => (secretsCache.get? sid).isSome)), false⟩
  | some (.secretsStored tx) => ⟨secretsCache, some (tx, .count secretsCache.length), false⟩
  | some .terminate => ⟨secretsCache, none, true⟩
  | none => ⟨secretsCache, none, true⟩

/-! ## The methods -/

/-- How far a call is: in the loop of `insert_vec` with the secrets it is past and those to come, before the
`try_send` of its request, waiting for the reply, or about to return. -/
inductive Stage
  | adding (passed rest : List Secret)
  | asking (command : SecretTaskCommand)
  | waiting
  | returning (reply : Reply)
  | returned
  deriving DecidableEq

namespace Call

/-- Where a call begins. -/
def start (i : ℕ) : Call → Stage
  | .insert secret => .adding [] [secret]
  | .insertVec secrets => .adding [] secrets
  | .getSecret secretId => .asking (.getSecret secretId i)
  | .findSecrets secretIds => .asking (.findSecrets secretIds i)
  | .removeSecret secretId => .asking (.removeSecret secretId)
  | .len => .asking (.secretsStored i)
  | .isEmpty => .asking (.secretsStored i)

/-- Where a call goes once its request is in the channel: a removal waits for nothing and returns `None`. -/
def afterSend : Call → Stage
  | .removeSecret _ => .returning (.secret none)
  | _ => .waiting

/-- What a call returns when it has no reply: the channel is full or closed, or the sender was dropped. -/
def onError : Call → Reply
  | .insert _ => .done
  | .insertVec _ => .done
  | .getSecret _ => .secret none
  | .findSecrets _ => .found []
  | .removeSecret _ => .secret none
  | .len => .count 0
  | .isEmpty => .empty true

/-- What a call returns of a reply. -/
def ofAnswer : Call → Answer → Reply
  | .isEmpty, .count n => .empty (n == 0)
  | _, .count n => .count n
  | _, .secret found => .secret found
  | _, .found ids => .found ids

end Call

/-! ## The resolver and its callers -/

/-- The task with its channel, the replies it sent, and the calls made through the clones of the handle. -/
structure System where
  cache : SecretMap
  queue : List SecretTaskCommand
  running : Bool
  answers : List (ℕ × Answer)
  calls : ℕ → Option (Call × Stage)
  history : List (Event ℕ Call Reply)

/-- The size of the channel. -/
def channelSize : ℕ := 32

/-- Why `try_send` did not queue a command. -/
inductive TrySendError
  | full
  | closed

namespace System

def new : System := ⟨OrdMap.empty, [], true, [], fun _ => none, []⟩

/-- The channel with one more command, if it takes it. -/
def trySend (s : System) (command : SecretTaskCommand) : Except TrySendError (List SecretTaskCommand) :=
  if !s.running then .error .closed
  else if s.queue.length < channelSize then .ok (s.queue ++ [command])
  else .error .full

/-- The call `i` is at a stage. -/
def at_ (s : System) (i : ℕ) (call : Call) (stage : Stage) : System :=
  { s with calls := Function.update s.calls i (some (call, stage)) }

def return_ (s : System) (i : ℕ) (call : Call) (reply : Reply) : System :=
  { s.at_ i call .returned with history := s.history ++ [.ret i reply] }

/-- The steps of the callers and of the task. -/
inductive Action
  | invoke (i : ℕ) (call : Call)
  | trySend (i : ℕ)
  | handle
  | ret (i : ℕ)

/-- The loop of `insert_vec` drops a secret that the channel does not take, and goes on. -/
def sendNext (s : System) (i : ℕ) : Option System :=
  match s.calls i with
  | some (call, .adding passed (secret :: rest)) =>
    let s := s.at_ i call (.adding (passed ++ [secret]) rest)
    match s.trySend (.addSecret secret) with
    | .ok queue => some { s with queue }
    | .error _ => some s
  | some (call, .asking command) =>
    match s.trySend command with
    | .ok queue => some { s.at_ i call call.afterSend with queue }
    | .error _ => some (s.at_ i call (.returning call.onError))
  | _ => none

/-- The task takes the first command. -/
def handleNext (s : System) : Option System :=
  match s.running, s.queue with
  | true, command :: queue =>
    let handled := handleMsg s.cache (some command)
    some { s with
      cache := handled.cache, queue, running := !handled.exitFlag, answers := s.answers ++ handled.sent.toList }
  | _, _ => none

/-- A call returns. One that waits has its reply, or the task is gone. -/
def returnNext (s : System) (i : ℕ) : Option System :=
  match s.calls i with
  | some (call, .adding _ []) => some (s.return_ i call .done)
  | some (call, .waiting) =>
    match s.answers.lookup i with
    | some answer => some (s.return_ i call (call.ofAnswer answer))
    | none => if s.running then none else some (s.return_ i call call.onError)
  | some (call, .returning reply) => some (s.return_ i call reply)
  | _ => none

/-- One step, of a caller or of the task. -/
def step (s : System) : Action → Option System
  | .invoke i call =>
    if (s.calls i).isNone then
      some { s.at_ i call (call.start i) with history := s.history ++ [.call i call] }
    else none
  | .trySend i => s.sendNext i
  | .handle => s.handleNext
  | .ret i => s.returnNext i

/-- The states of the runs from a new resolver all of whose steps are allowed. -/
inductive Reach (allowed : System → Action → Prop) : System → Prop
  | new : Reach allowed new
  | step {s s' : System} {action : Action} (h : Reach allowed s) (hallowed : allowed s action)
      (hstep : s.step action = some s') : Reach allowed s'

/-- The states of all runs. -/
abbrev Reachable : System → Prop := Reach fun _ _ => True


end System

end AffinidiTdk.Secrets
