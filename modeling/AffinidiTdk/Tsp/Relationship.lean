/-
TSP relationships (`relationship.rs`, `store.rs`, `message/control.rs` and the relationship half of
`TspAgent` in `lib.rs`): the state machine of one side, the store that keeps it for each pair of
VIDs, and what sending and receiving a control message does to it. A packed message is what
unpacking gives back: sender, receiver and control; nonces are arguments.
-/
import AffinidiTdk.Lib.Except
import AffinidiTdk.Lib.Text

namespace AffinidiTdk.Tsp

/-! ## The state machine -/

/-- The states of a relationship. -/
inductive RelationshipState
  | none
  | pending
  | inviteReceived
  | bidirectional
  deriving DecidableEq

def RelationshipState.display : RelationshipState → String
  | .none => "None"
  | .pending => "Pending"
  | .inviteReceived => "InviteReceived"
  | .bidirectional => "Bidirectional"

/-- What moves a relationship. -/
inductive RelationshipEvent
  | sendInvite
  | receiveInvite
  | sendAccept
  | receiveAccept
  | sendCancel
  | receiveCancel

def RelationshipEvent.display : RelationshipEvent → String
  | .sendInvite => "SendInvite"
  | .receiveInvite => "ReceiveInvite"
  | .sendAccept => "SendAccept"
  | .receiveAccept => "ReceiveAccept"
  | .sendCancel => "SendCancel"
  | .receiveCancel => "ReceiveCancel"

/-- An event that does not fit the state. -/
structure InvalidTransition where
  state : RelationshipState
  event : RelationshipEvent

def InvalidTransition.display (e : InvalidTransition) : String :=
  s!"invalid transition: {e.event.display} in state {e.state.display}"

namespace RelationshipState

def canSend (state : RelationshipState) : Bool := state = .bidirectional

def transition : RelationshipState → RelationshipEvent → Except InvalidTransition RelationshipState
  | .none, .sendInvite => .ok .pending
  | .none, .receiveInvite => .ok .inviteReceived
  | .pending, .receiveAccept => .ok .bidirectional
  | .pending, .receiveCancel => .ok .none
  | .pending, .sendCancel => .ok .none
  | .inviteReceived, .sendAccept => .ok .bidirectional
  | .inviteReceived, .sendCancel => .ok .none
  | .bidirectional, .sendCancel => .ok .none
  | .bidirectional, .receiveCancel => .ok .none
  | state, event => .error ⟨state, event⟩

end RelationshipState

/-! ## The store -/

/-- The error kinds of the crate. -/
inductive TspError
  | hpke (msg : String)
  | verification (msg : String)
  | relationship (msg : String)
  | invalidMessage (msg : String)

/-- The relationships of one agent; a pair without an entry has none. -/
structure TspStore where
  relationships : String → Option RelationshipState

instance : Inhabited TspStore := ⟨⟨fun _ => none⟩⟩

def relationshipKey (ourVid theirVid : String) : String := ourVid ++ "\x00" ++ theirVid

namespace TspStore

def relationshipState (store : TspStore) (ourVid theirVid : String) : RelationshipState :=
  (store.relationships (relationshipKey ourVid theirVid)).getD .none

def transitionRelationship (store : TspStore) (ourVid theirVid : String) (event : RelationshipEvent) :
    Except TspError (RelationshipState × TspStore) :=
  let key := relationshipKey ourVid theirVid
  let current := (store.relationships key).getD .none
  match current.transition event with
  | .ok newState =>
    .ok (newState, ⟨Function.update store.relationships key (if newState = .none then none else some newState)⟩)
  | .error e => .error (.relationship s!"{ourVid} → {theirVid} via {event.display}: {e.display}")

variable {store store' : TspStore} {ourVid theirVid : String} {event : RelationshipEvent}
  {newState : RelationshipState}

theorem transitionRelationship_eq_ok
    (h : store.transitionRelationship ourVid theirVid event = .ok (newState, store')) :
    (store.relationshipState ourVid theirVid).transition event = .ok newState ∧
      store'.relationshipState ourVid theirVid = newState := by
  unfold transitionRelationship at h
  dsimp only at h
  split at h
  · rename_i state htransition
    cases h
    refine ⟨htransition, ?_⟩
    unfold relationshipState
    dsimp only
    rw [Function.update_self]
    split
    · rename_i hnone
      exact hnone.symm
    · rfl
  · cases h

theorem transitionRelationship_eq_error {e : TspError}
    (h : store.transitionRelationship ourVid theirVid event = .error e) :
    ∃ invalid, (store.relationshipState ourVid theirVid).transition event = .error invalid := by
  unfold transitionRelationship at h
  dsimp only at h
  split at h
  · cases h
  · rename_i invalid htransition
    exact ⟨invalid, htransition⟩

end TspStore

/-! ## Control messages -/

/-- The kinds of control messages. -/
inductive ControlType
  | relationshipFormingInvite
  | relationshipFormingAccept
  | relationshipCancel
  deriving DecidableEq

abbrev Bytes := List UInt8

/-- The body of a control message. -/
structure ControlMessage where
  controlType : ControlType
  threadId : Option Bytes
  nonce : Option Bytes
  deriving DecidableEq

namespace ControlMessage

def invite (nonce : Bytes) : ControlMessage := ⟨.relationshipFormingInvite, none, some nonce⟩

def accept (inviteDigest nonce : Bytes) : ControlMessage :=
    ⟨.relationshipFormingAccept, some inviteDigest, some nonce⟩

def cancel : ControlMessage := ⟨.relationshipCancel, none, none⟩

end ControlMessage

/-- A control message with its two VIDs. -/
structure PackedControl where
  sender : String
  receiver : String
  control : ControlMessage
  deriving DecidableEq

/-! ## The agent -/

namespace TspStore

variable (store : TspStore) (ourVid theirVid : String)

/-- A control message and the transition that sending it makes; without the transition it is not
sent. -/
def sendControl (control : ControlMessage) (event : RelationshipEvent) :
    Except TspError (PackedControl × TspStore) := do
  let (_, store) ← store.transitionRelationship ourVid theirVid event
  return (⟨ourVid, theirVid, control⟩, store)

def sendRelationshipInvite (nonce : Bytes) : Except TspError (PackedControl × TspStore) :=
  store.sendControl ourVid theirVid (.invite nonce) .sendInvite

def sendRelationshipAccept (inviteDigest nonce : Bytes) : Except TspError (PackedControl × TspStore) :=
  store.sendControl ourVid theirVid (.accept inviteDigest nonce) .sendAccept

def sendRelationshipCancel : Except TspError (PackedControl × TspStore) :=
  store.sendControl ourVid theirVid .cancel .sendCancel

/-- The event of a control message that arrives. -/
def receiveEvent : ControlType → RelationshipEvent
  | .relationshipFormingInvite => .receiveInvite
  | .relationshipFormingAccept => .receiveAccept
  | .relationshipCancel => .receiveCancel

/-- The thread id and the nonce of the message are not looked at. -/
def handleControl (control : ControlMessage) : Except TspError TspStore := do
  let (_, store) ← store.transitionRelationship ourVid theirVid (receiveEvent control.controlType)
  return store

/-- `receive` of a control message. -/
def receive (packed : PackedControl) : Except TspError TspStore :=
  if packed.receiver ≠ ourVid then
    .error (.invalidMessage s!"message addressed to {packed.receiver}, not {ourVid}")
  else store.handleControl ourVid packed.sender packed.control

end TspStore

end AffinidiTdk.Tsp
