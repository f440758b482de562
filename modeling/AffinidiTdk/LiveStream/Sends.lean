/-
What becomes of the messages that the SDK sends over its socket (`ATM::send_message` and `WebSocketTransport::run`). A
send is over when its message is on the channel; the loop takes it from there in any state, and where there is no socket
or the write fails the message is gone. As long as no branch does that, the messages that were accepted are those that
were written, in their order, and those that wait, and the loop can still write them.
-/
import AffinidiTdk.LiveStream.Loop

namespace AffinidiTdk.LiveStream

open List WebSocketLoop
open Machine (Taken Run outputs)

/-! ## What is promised -/

section Promise

variable {Metadata Sender : Type}

def LoopCommand.message? : LoopCommand Sender → Option String
  | .sendMessage message => some message
  | _ => none

/-- The messages on a channel. -/
def messages (queue : List (LoopCommand Sender)) : List String := queue.filterMap LoopCommand.message?

def LoopOutput.accepted? : LoopOutput Metadata Sender → Option String
  | .accepted message => some message
  | _ => none

def LoopOutput.written? : LoopOutput Metadata Sender → Option String
  | .written message => some message
  | _ => none

/-- The messages whose send returned, in order. -/
def acceptedOf (out : List (LoopOutput Metadata Sender)) : List String := out.filterMap LoopOutput.accepted?

/-- The messages that were written to a socket, in order. -/
def writtenOf (out : List (LoopOutput Metadata Sender)) : List String := out.filterMap LoopOutput.written?

/-- A step that the loop takes by itself. -/
def LoopEvent.IsOwn : LoopEvent Sender → Prop
  | .select _ => True
  | _ => False

variable (messageSize : UInt64) (atm : Atm Metadata) (lossy : List UInt8 → String)

/-- The loop can go on to write the messages that wait, where the network lets it. -/
def Writable (loop : WebSocketLoop Metadata Sender) (waiting : List String) : Prop :=
  ∃ later loop', Run (WebSocketLoop.step messageSize atm lossy) loop later loop' ∧ (∀ t ∈ later, t.input.IsOwn) ∧
    waiting <+: writtenOf (outputs later)

/-- Every message whose send returned was written, in order, or waits for a step of the loop to write it. -/
structure SendsKept (trace : List (LoopStep Metadata Sender)) (loop : WebSocketLoop Metadata Sender) : Prop where
  accounted : acceptedOf (outputs trace) = writtenOf (outputs trace) ++ messages loop.queue
  writable : Writable messageSize atm lossy loop (messages loop.queue)

end Promise

/-! ## The branches that go wrong -/

namespace WebSocketLoop

variable {Metadata Sender : Type}

/-- Live delivery is enabled by a message on the loop's own channel. -/
def TogglesByChannel (loop : WebSocketLoop Metadata Sender) : Prop :=
  loop.skipToggleLiveDelivery = false ∧ loop.registered = true

/-- A message is taken from the channel only to be written; none is accepted behind a stop; and connecting does not
wait for room in a channel with messages. -/
def Safe (loop : WebSocketLoop Metadata Sender) : LoopEvent Sender → Prop
  | .accept command => command.message? ≠ none → loop.status = .running ∧ .stop ∉ loop.queue
  | .select (.recv written) => ∀ message, loop.queue.head? = some (.sendMessage message) →
    loop.connected = true ∧ written = true
  | .select (.reconnect (.opened _ _ (.packed _ _))) => loop.TogglesByChannel →
    (loop.queue.length < commandCapacity → .stop ∉ loop.queue) ∧
      (commandCapacity ≤ loop.queue.length → messages loop.queue = [])
  | _ => True

/-- Without a socket the loop finds a message in front of a full channel: to take it is to lose it, and to connect is to
wait for room. -/
def Stuck (loop : WebSocketLoop Metadata Sender) : Prop :=
  loop.status = .running ∧ loop.connected = false ∧ loop.TogglesByChannel ∧ commandCapacity ≤ loop.queue.length ∧
    ∃ message, loop.queue.head? = some (.sendMessage message)

end WebSocketLoop

/-! ## Channels -/

section Channels

variable {Sender : Type} {queue front back : List (LoopCommand Sender)} {command : LoopCommand Sender}

@[simp] theorem messages_nil : messages ([] : List (LoopCommand Sender)) = [] := rfl

@[simp] theorem messages_append : messages (front ++ back) = messages front ++ messages back := filterMap_append

theorem messages_cons : messages (command :: queue) = command.message?.toList ++ messages queue := by
  unfold messages
  rw [filterMap_cons]
  cases command.message? with
  | none => rfl
  | some message => rfl

/-- No message stands behind a stop. -/
def StopLast (queue : List (LoopCommand Sender)) : Prop :=
  ∀ front back, queue = front ++ .stop :: back → messages back = []

theorem StopLast.tail (h : StopLast (command :: queue)) : StopLast queue :=
  fun front back heq => h (command :: front) back (by rw [heq]; rfl)

theorem StopLast.concat (h : StopLast queue) (hcommand : command.message? ≠ none → .stop ∉ queue) :
    StopLast (queue ++ [command]) := by
  intro front back heq
  rcases eq_nil_or_concat back with rfl | ⟨back, last, rfl⟩
  · rfl
  · rw [concat_eq_append] at heq ⊢
    have hsplit : queue ++ [command] = (front ++ .stop :: back) ++ [last] := by
      rw [heq]
      simp
    obtain ⟨hqueue, hlast⟩ := append_inj' hsplit rfl
    cases hlast
    have hnone : command.message? = none := by
      by_contra hsome
      refine hcommand hsome ?_
      rw [hqueue]
      simp
    rw [messages_append, h front back hqueue, messages_cons, hnone]
    rfl

end Channels

/-! ## One step -/

namespace WebSocketLoop

variable {Metadata Sender : Type} {messageSize : UInt64} {atm : Atm Metadata} {lossy : List UInt8 → String}
variable {loop : WebSocketLoop Metadata Sender} {r : List (LoopOutput Metadata Sender) × WebSocketLoop Metadata Sender}

/-- The channel holds no more than it can; while the loop runs, its messages stand before a stop; after that there are
none. -/
structure Good (loop : WebSocketLoop Metadata Sender) : Prop where
  bounded : loop.queue.length ≤ commandCapacity
  last : loop.status = .running → StopLast loop.queue
  idle : loop.status ≠ .running → messages loop.queue = []

/-- No message is accepted or written, and the channel is as it was. -/
structure Quiet (loop : WebSocketLoop Metadata Sender)
    (r : List (LoopOutput Metadata Sender) × WebSocketLoop Metadata Sender) : Prop where
  accepted : acceptedOf r.1 = []
  written : writtenOf r.1 = []
  queue : r.2.queue = loop.queue
  status : r.2.status = loop.status

/-- The messages that waited or were accepted are those that were written and those that wait. -/
structure Accounts (loop : WebSocketLoop Metadata Sender)
    (r : List (LoopOutput Metadata Sender) × WebSocketLoop Metadata Sender) : Prop where
  accounted : messages loop.queue ++ acceptedOf r.1 = writtenOf r.1 ++ messages r.2.queue
  good : r.2.Good

theorem acceptedOf_handed (outgoing : List (Outgoing Metadata Sender)) : acceptedOf (outgoing.map .handed) = [] := by
  unfold acceptedOf
  rw [filterMap_eq_nil_iff]
  intro out hout
  obtain ⟨o, -, rfl⟩ := mem_map.1 hout
  rfl

theorem writtenOf_handed (outgoing : List (Outgoing Metadata Sender)) : writtenOf (outgoing.map .handed) = [] := by
  unfold writtenOf
  rw [filterMap_eq_nil_iff]
  intro out hout
  obtain ⟨o, -, rfl⟩ := mem_map.1 hout
  rfl

theorem Quiet.accounts (h : Quiet loop r) (hgood : loop.Good) : Accounts loop r where
  accounted := by rw [h.accepted, h.written, h.queue, append_nil, nil_append]
  good := {
    bounded := by
      rw [h.queue]
      exact hgood.bounded
    last := by
      rw [h.queue, h.status]
      exact hgood.last
    idle := by
      rw [h.queue, h.status]
      exact hgood.idle }

theorem quiet_refresh (loop : WebSocketLoop Metadata Sender) : Quiet loop loop.refresh :=
  ⟨acceptedOf_handed _, writtenOf_handed _, rfl, rfl⟩

theorem quiet_watchdog (loop : WebSocketLoop Metadata Sender) : Quiet loop loop.watchdog := by
  unfold watchdog
  split_ifs
  · exact ⟨acceptedOf_handed _, writtenOf_handed _, rfl, rfl⟩
  · exact ⟨rfl, rfl, rfl, rfl⟩

theorem quiet_inbound (loop : WebSocketLoop Metadata Sender) (inbound : Inbound) :
    Quiet loop (loop.handleInboundMessage messageSize atm lossy inbound) := by
  cases inbound with
  | frame frame =>
    cases frame with
    | text text | binary data => exact ⟨acceptedOf_handed _, writtenOf_handed _, rfl, rfl⟩
    | ping | pong => exact ⟨rfl, rfl, rfl, rfl⟩
    | close => exact ⟨acceptedOf_handed _, writtenOf_handed _, rfl, rfl⟩
    | other => exact ⟨rfl, rfl, rfl, rfl⟩
  | reset | error => exact ⟨acceptedOf_handed _, writtenOf_handed _, rfl, rfl⟩

theorem outputs_notified (sender : Option Sender) :
    acceptedOf (sender.toList.map (LoopOutput.notified : Sender → LoopOutput Metadata Sender)) = [] ∧
      writtenOf (sender.toList.map (LoopOutput.notified : Sender → LoopOutput Metadata Sender)) = [] := by
  cases sender with
  | none => exact ⟨rfl, rfl⟩
  | some sender => exact ⟨rfl, rfl⟩

theorem quiet_establish (now : ℕ) (loop : WebSocketLoop Metadata Sender) : Quiet loop (loop.establish now) :=
  ⟨(outputs_notified _).1, (outputs_notified _).2, rfl, rfl⟩

variable {command : LoopCommand Sender}

theorem quiet_command (messageSize : UInt64) (loop : WebSocketLoop Metadata Sender) (written : Bool)
    (hmessage : command.message? = none) (hstop : command ≠ .stop) :
    Quiet loop (handleCommand messageSize written loop command) := by
  cases command with
  | notifyConnection sender =>
    show Quiet loop (if loop.connected then ([.notified sender], loop) else
      ([], { loop with notifyConnection := some sender }))
    split_ifs
    · exact ⟨rfl, rfl, rfl, rfl⟩
    · exact ⟨rfl, rfl, rfl, rfl⟩
  | sendMessage message => cases hmessage
  | stop => exact absurd rfl hstop
  | request command => exact ⟨acceptedOf_handed _, writtenOf_handed _, rfl, rfl⟩

theorem accounts_accept (command : LoopCommand Sender) (hgood : loop.Good)
    (hroom : loop.queue.length < commandCapacity)
    (hsafe : command.message? ≠ none → loop.status = .running ∧ .stop ∉ loop.queue) :
    Accounts loop (acknowledged command, { loop with queue := loop.queue ++ [command] }) where
  accounted := by
    rw [messages_append, messages_cons]
    cases command with
    | sendMessage message => rfl
    | _ => simp [acknowledged, acceptedOf, writtenOf, LoopCommand.message?]
  good := {
    bounded := by
      rw [length_append]
      exact hroom
    last := fun hrunning => (hgood.last hrunning).concat fun hmessage => (hsafe hmessage).2
    idle := fun hidle => by
      have hnone : command.message? = none := by
        by_contra hmessage
        exact hidle (hsafe hmessage).1
      rw [messages_append, hgood.idle hidle, messages_cons, hnone]
      rfl }

variable {queue : List (LoopCommand Sender)}

theorem accounts_recv {written : Bool} (hgood : loop.Good) (hrunning : loop.status = .running)
    (hqueue : loop.queue = command :: queue) (hsafe : ∀ message, command = .sendMessage message → loop.connected =
    true ∧ written = true) : Accounts loop (handleCommand messageSize written { loop with queue } command) := by
  have hlast : StopLast (command :: queue) := hqueue ▸ hgood.last hrunning
  have hbounded : queue.length ≤ commandCapacity := by
    have hle := hgood.bounded
    rw [hqueue, length_cons] at hle
    omega
  have hrest : Good { loop with queue } :=
    ⟨hbounded, fun _ => hlast.tail, fun hidle => absurd hrunning hidle⟩
  by_cases hstop : command = .stop
  · subst hstop
    have hnone : messages queue = [] := hlast [] queue rfl
    refine ⟨?_, hbounded, fun h => (by cases h), fun _ => hnone⟩
    show messages loop.queue ++ acceptedOf (if loop.connected then [.closed] else []) =
      writtenOf (if loop.connected then [.closed] else []) ++ messages queue
    rw [hqueue, messages_cons, hnone]
    split_ifs
    · rfl
    · rfl
  cases hmessage : command.message? with
  | none =>
    obtain ⟨haccounted, hgood'⟩ := (quiet_command messageSize { loop with queue } written hmessage hstop).accounts hrest
    refine ⟨?_, hgood'⟩
    rw [← haccounted, hqueue, messages_cons, hmessage]
    rfl
  | some message =>
    cases command with
    | sendMessage text =>
      obtain ⟨hconnected, rfl⟩ := hsafe text rfl
      refine ⟨?_, hrest⟩
      have hout : (handleCommand messageSize true { loop with queue } (.sendMessage text)).1 = [.written text] :=
        if_pos ⟨hconnected, rfl⟩
      rw [hout, hqueue, messages_cons]
      exact append_nil _
    | _ => cases hmessage

theorem accounts_reconnect {connection : Connection} (hgood : loop.Good) (hrunning : loop.status = .running)
    (hsafe : loop.Safe (.select (.reconnect connection))) : Accounts loop (loop.handleConnection connection) := by
  rcases loop.handleConnection_cases connection with ⟨expiry, -, hout, heq⟩ | ⟨expiry, now, toggle, -, heq, -⟩ |
    ⟨expiry, now, message, posted, rfl, hskip, hregistered, hroom, heq⟩ |
    ⟨expiry, now, message, posted, rfl, hskip, hregistered, hfull, heq⟩
  · refine Quiet.accounts ⟨?_, ?_, ?_, ?_⟩ hgood
    · rcases hout with hout | hout
      · rw [hout]
        rfl
      · rw [hout]
        rfl
    · rcases hout with hout | hout
      · rw [hout]
        rfl
      · rw [hout]
        rfl
    · rw [heq]
      rfl
    · rw [heq]
      rfl
  · rw [heq]
    obtain ⟨haccepted, hwritten, hqueue, hstatus⟩ := quiet_establish now { loop with accessExpiresAt := some expiry }
    exact Quiet.accounts ⟨haccepted, hwritten, hqueue, hstatus⟩ hgood
  · have hstop : .stop ∉ loop.queue := (hsafe ⟨hskip, hregistered⟩).1 hroom
    obtain ⟨haccounted, hbounded, hlast, hidle⟩ := accounts_accept (.sendMessage message) hgood hroom
      fun _ => ⟨hrunning, hstop⟩
    rw [heq]
    refine ⟨?_, hbounded, hlast, hidle⟩
    show messages loop.queue ++ (message :: acceptedOf (loop.notifyConnection.toList.map .notified)) =
      writtenOf (loop.notifyConnection.toList.map .notified) ++ messages (loop.queue ++ [.sendMessage message])
    rw [(outputs_notified _).1, (outputs_notified _).2]
    exact haccounted
  · have hnone := (hsafe ⟨hskip, hregistered⟩).2 (not_lt.1 hfull)
    rw [heq]
    exact ⟨append_nil _, hgood.bounded, fun h => (by cases h), fun _ => hnone⟩

theorem step_accounts {event : LoopEvent Sender} (hstep : step messageSize atm lossy loop event = some r)
    (hgood : loop.Good) (hsafe : loop.Safe event) : Accounts loop r := by
  cases event with
  | accept command =>
    obtain ⟨⟨-, hroom⟩, rfl⟩ := step_accept hstep
    exact accounts_accept command hgood hroom hsafe
  | register stored =>
    cases hstep
    exact Quiet.accounts ⟨rfl, rfl, rfl, rfl⟩ hgood
  | finish =>
    obtain ⟨hclosing, heq⟩ := Option.ite_none_right_eq_some.1 hstep
    cases heq
    have hnone : messages loop.queue = [] := hgood.idle (by rw [hclosing]; decide)
    refine ⟨?_, Nat.zero_le _, fun h => (by cases h), fun _ => rfl⟩
    rw [hnone]
    rfl
  | hangUp =>
    obtain ⟨⟨-, hqueue, -⟩, heq⟩ := Option.ite_none_right_eq_some.1 hstep
    cases heq
    refine ⟨append_nil _, hgood.bounded, fun h => (by cases h), fun _ => ?_⟩
    show messages loop.queue = []
    rw [hqueue]
    rfl
  | select branch =>
    obtain ⟨hrunning, timer, hselect⟩ := step_select hstep
    have harmed : Good { loop with connectDelayTimer := timer } := ⟨hgood.bounded, hgood.last, hgood.idle⟩
    suffices h : Accounts { loop with connectDelayTimer := timer } r from ⟨h.accounted, h.good⟩
    cases branch with
    | reconnect connection =>
      rw [(selectBranch_reconnect hselect).2]
      refine accounts_reconnect harmed hrunning ?_
      cases connection with
      | opened expiry now toggle =>
        cases toggle with
        | unpacked => trivial
        | packed message posted => exact hsafe
      | _ => trivial
    | refresh =>
      rw [selectBranch_refresh hselect]
      exact (quiet_refresh _).accounts harmed
    | watchdog =>
      rw [(selectBranch_watchdog hselect).2]
      exact (quiet_watchdog _).accounts harmed
    | recv written =>
      obtain ⟨command, queue, hqueue, rfl⟩ := selectBranch_recv hselect
      refine accounts_recv harmed hrunning hqueue fun message hcommand => hsafe message ?_
      show List.head? loop.queue = _
      rw [show loop.queue = command :: queue from hqueue, hcommand]
      rfl
    | inbound inbound =>
      rw [selectBranch_inbound hselect]
      exact (quiet_inbound _ inbound).accounts harmed

/-! ## Writing what waits -/

theorem webSocket_handleCommand (transport : WebSocketTransport Metadata Sender) (command : WebSocketCommand Sender) :
    (WebSocketTransport.handleCommand messageSize transport command).2.webSocket = transport.webSocket := by
  cases command with
  | next id sender | getMessage id sender =>
    unfold WebSocketTransport.handleCommand
    dsimp only
    split
    · rfl
    · rfl
  | _ => rfl

theorem handleCommand_keeps (messageSize : UInt64) (written : Bool) (loop : WebSocketLoop Metadata Sender)
    (hstop : command ≠ .stop) : (handleCommand messageSize written loop command).2.connected = loop.connected ∧
    (handleCommand messageSize written loop command).2.queue = loop.queue ∧
    (handleCommand messageSize written loop command).2.status = loop.status ∧
    (handleCommand messageSize written loop command).2.skipToggleLiveDelivery = loop.skipToggleLiveDelivery ∧
    (handleCommand messageSize written loop command).2.registered = loop.registered := by
  cases command with
  | notifyConnection sender =>
    unfold handleCommand
    dsimp only
    split
    · exact ⟨rfl, rfl, rfl, rfl, rfl⟩
    · exact ⟨rfl, rfl, rfl, rfl, rfl⟩
  | sendMessage message => exact ⟨rfl, rfl, rfl, rfl, rfl⟩
  | stop => exact absurd rfl hstop
  | request command => exact ⟨webSocket_handleCommand _ command, rfl, rfl, rfl, rfl⟩

theorem step_recv (messageSize : UInt64) (atm : Atm Metadata) (lossy : List UInt8 → String) (written : Bool)
    (hrunning : loop.status = .running) (hqueue : loop.queue = command :: queue) : ∃ timer, step messageSize atm
    lossy loop (.select (.recv written)) =
    some (handleCommand messageSize written { loop with connectDelayTimer := timer, queue } command) := by
  obtain ⟨timer, harm⟩ := armTimer_eq loop
  refine ⟨timer, ?_⟩
  show (if loop.status = .running then selectBranch messageSize atm lossy loop.armTimer (.recv written) else none) = _
  rw [if_pos hrunning, harm]
  unfold selectBranch
  simp only [hqueue]

theorem step_reconnect (messageSize : UInt64) (atm : Atm Metadata) (lossy : List UInt8 → String)
    (connection : Connection) (hrunning : loop.status = .running) (hconnected : loop.connected = false) :
    ∃ timer, step messageSize atm lossy loop (.select (.reconnect connection)) =
      some (handleConnection { loop with connectDelayTimer := timer } connection) := by
  have hsome := armTimer_isSome hconnected
  obtain ⟨timer, harm⟩ := armTimer_eq loop
  refine ⟨timer, ?_⟩
  rw [harm] at hsome
  show (if loop.status = .running then selectBranch messageSize atm lossy loop.armTimer (.reconnect connection)
    else none) = _
  rw [if_pos hrunning, harm]
  exact if_pos ⟨hconnected, hsome⟩

theorem writable_nil (loop : WebSocketLoop Metadata Sender) : Writable messageSize atm lossy loop [] :=
  ⟨[], loop, .nil, fun _ ht => (by cases ht), nil_prefix⟩

/-- What a branch writes, and what is writable after it, was writable before. -/
theorem Writable.step {branch : Branch} {waiting : List String}
    (hstep : step messageSize atm lossy loop (.select branch) = some r)
    (h : Writable messageSize atm lossy r.2 waiting) :
    Writable messageSize atm lossy loop (writtenOf r.1 ++ waiting) := by
  obtain ⟨later, loop', hrun, hown, hprefix⟩ := h
  refine ⟨⟨loop, .select branch, r.1, r.2⟩ :: later, loop', (Run.single hstep).trans hrun, ?_, ?_⟩
  · intro t ht
    rcases mem_cons.1 ht with rfl | ht
    · trivial
    · exact hown t ht
  · have hout : writtenOf (outputs (⟨loop, .select branch, r.1, r.2⟩ :: later)) =
        writtenOf r.1 ++ writtenOf (outputs later) := filterMap_append
    rw [hout]
    exact (prefix_append_right_inj _).2 hprefix

/-- With a socket the front of the channel is written out, command by command. -/
theorem writable_of_connected {front back : List (LoopCommand Sender)} (hlast : StopLast front) :
    ∀ {loop : WebSocketLoop Metadata Sender}, loop.status = .running → loop.connected = true →
      loop.queue = front ++ back → Writable messageSize atm lossy loop (messages front) := by
  induction front with
  | nil => exact fun _ _ _ => writable_nil _
  | cons command front ih =>
    intro loop hrunning hconnected hqueue
    by_cases hstop : command = .stop
    · subst hstop
      rw [messages_cons, hlast [] front rfl]
      exact writable_nil loop
    have hqueue' : loop.queue = command :: (front ++ back) := hqueue
    obtain ⟨timer, hstep⟩ := step_recv messageSize atm lossy true hrunning hqueue'
    obtain ⟨hsocket, hrest, hstatus, -, -⟩ :=
      handleCommand_keeps messageSize true { loop with connectDelayTimer := timer, queue := front ++ back } hstop
    have hlater := Writable.step hstep
      (ih hlast.tail (hstatus.trans hrunning) (hsocket.trans hconnected) hrest)
    rw [messages_cons]
    cases hmessage : command.message? with
    | none =>
      rw [(quiet_command messageSize { loop with connectDelayTimer := timer, queue := front ++ back } true hmessage
        hstop).written] at hlater
      exact hlater
    | some message =>
      cases command with
      | sendMessage text =>
        obtain rfl : text = message := Option.some.inj hmessage
        have hout : (handleCommand messageSize true { loop with connectDelayTimer := timer, queue := front ++ back }
            (.sendMessage text)).1 = [.written text] := if_pos ⟨hconnected, rfl⟩
        rw [hout] at hlater
        exact hlater
      | _ => cases hmessage

theorem writable_of_room (messageSize : UInt64) (atm : Atm Metadata) (lossy : List UInt8 → String)
    (hrunning : loop.status = .running) (hlast : StopLast loop.queue)
    (hroom : loop.TogglesByChannel → loop.queue.length < commandCapacity) :
    Writable messageSize atm lossy loop (messages loop.queue) := by
  by_cases hconnected : loop.connected = true
  · exact writable_of_connected hlast hrunning hconnected (append_nil _).symm
  rw [Bool.not_eq_true] at hconnected
  obtain ⟨timer, hstep⟩ := step_reconnect messageSize atm lossy (.opened 0 0 (.packed "" true)) hrunning hconnected
  rcases handleConnection_cases { loop with connectDelayTimer := timer } (.opened 0 0 (.packed "" true)) with
    ⟨-, hne, -⟩ | ⟨expiry, now, toggle, -, heq, -⟩ | ⟨expiry, now, message, posted, -, -, -, -, heq⟩ |
    ⟨-, -, -, -, -, hskip, hregistered, hfull, -⟩
  · exact absurd rfl (hne 0 0 "")
  · rw [heq] at hstep
    have hlater := Writable.step hstep
      (writable_of_connected hlast hrunning rfl (append_nil _).symm)
    rw [(quiet_establish now _).written] at hlater
    exact hlater
  · rw [heq] at hstep
    have hlater := Writable.step hstep (writable_of_connected hlast hrunning rfl rfl)
    have hnone : writtenOf (LoopOutput.accepted message ::
        (loop.notifyConnection.toList.map .notified : List (LoopOutput Metadata Sender))) = [] :=
      (outputs_notified _).2
    rw [hnone] at hlater
    exact hlater
  · exact absurd (hroom ⟨hskip, hregistered⟩) hfull

theorem writable_of_good (hgood : loop.Good) (hfree : ¬ loop.Stuck) :
    Writable messageSize atm lossy loop (messages loop.queue) := by
  by_cases hrunning : loop.status = .running
  swap
  · rw [hgood.idle hrunning]
    exact writable_nil loop
  have hlast := hgood.last hrunning
  by_cases hroom : loop.TogglesByChannel → loop.queue.length < commandCapacity
  · exact writable_of_room messageSize atm lossy hrunning hlast hroom
  obtain ⟨htoggles, hfull⟩ := Classical.not_imp.1 hroom
  rw [not_lt] at hfull
  by_cases hconnected : loop.connected = true
  · exact writable_of_connected hlast hrunning hconnected (append_nil _).symm
  rw [Bool.not_eq_true] at hconnected
  cases hqueue : loop.queue with
  | nil => exact writable_nil loop
  | cons command queue =>
    -- what stands in front is no message, and makes room when it is taken
    have hmessage : command.message? = none := by
      cases command with
      | sendMessage message =>
        exact absurd ⟨hrunning, hconnected, htoggles, hfull, message, by rw [hqueue]; rfl⟩ hfree
      | _ => rfl
    rw [hqueue] at hlast
    rw [messages_cons, hmessage]
    by_cases hstop : command = .stop
    · subst hstop
      rw [hlast [] queue rfl]
      exact writable_nil loop
    obtain ⟨timer, hstep⟩ := step_recv messageSize atm lossy true hrunning hqueue
    obtain ⟨-, hrest, hstatus, -, -⟩ :=
      handleCommand_keeps messageSize true { loop with connectDelayTimer := timer, queue } hstop
    have hbounded := hgood.bounded
    rw [hqueue, length_cons] at hbounded
    have hlater := writable_of_room messageSize atm lossy (hstatus.trans hrunning)
      (by rw [hrest]; exact hlast.tail) fun _ => by rw [hrest]; exact hbounded
    rw [hrest] at hlater
    have h := Writable.step hstep hlater
    rw [(quiet_command messageSize { loop with connectDelayTimer := timer, queue } true hmessage hstop).written] at h
    exact h

end WebSocketLoop

/-! ## Runs -/

section Runs

variable {Metadata Sender : Type} {messageSize : UInt64} {atm : Atm Metadata} {lossy : List UInt8 → String}

/-- **No send is lost** in a run of safe steps in which the loop is never stuck: what was accepted was written, in
order, or waits and can be written. -/
theorem sends_kept (limitCount : UInt32) (limitBytes : UInt64)
    (directChannel skipToggleLiveDelivery skipUnpackMessages : Bool) {trace : List (LoopStep Metadata Sender)}
    {loop : WebSocketLoop Metadata Sender}
    (h : Run (step messageSize atm lossy) (start limitCount limitBytes directChannel
      skipToggleLiveDelivery skipUnpackMessages) trace loop)
    (hsafe : ∀ t ∈ trace, t.before.Safe t.input) (hfree : ¬ loop.Stuck) :
    SendsKept messageSize atm lossy trace loop := by
  have hinv : acceptedOf (outputs trace) = writtenOf (outputs trace) ++ messages loop.queue ∧ loop.Good := by
    refine h.inv (fun trace loop => acceptedOf (outputs trace) = writtenOf (outputs trace) ++ messages loop.queue ∧
      loop.Good) hsafe ?_ ?_
    · refine ⟨rfl, Nat.zero_le _, fun _ front back heq => ?_, fun hidle => absurd rfl hidle⟩
      exact absurd heq (by simp [start])
    · rintro trace t hstep hok ⟨haccounted, hgood⟩
      obtain ⟨hkept, hgood'⟩ := step_accounts hstep hgood hok
      refine ⟨?_, hgood'⟩
      have haccepted : acceptedOf (outputs (trace ++ [t])) = acceptedOf (outputs trace) ++ acceptedOf t.output := by
        rw [Machine.outputs_append, Machine.outputs_singleton]
        exact filterMap_append
      have hwritten : writtenOf (outputs (trace ++ [t])) = writtenOf (outputs trace) ++ writtenOf t.output := by
        rw [Machine.outputs_append, Machine.outputs_singleton]
        exact filterMap_append
      calc acceptedOf (outputs (trace ++ [t]))
          = writtenOf (outputs trace) ++ (messages t.before.queue ++ acceptedOf t.output) := by
            rw [haccepted, haccounted, append_assoc]
        _ = writtenOf (outputs trace) ++ (writtenOf t.output ++ messages t.after.queue) := by rw [hkept]
        _ = writtenOf (outputs (trace ++ [t])) ++ messages t.after.queue := by rw [hwritten, append_assoc]
  exact ⟨hinv.1, writable_of_good hinv.2 hfree⟩

end Runs

/-- A loop with a message on its channel. -/
def queued (loop : WebSocketLoop Unit ℕ) : WebSocketLoop Unit ℕ := { loop with queue := [.sendMessage "hello"] }

/-- It connects, and a message that is accepted then is written. -/
theorem hello_kept : SendsKept 0 noAtm (fun _ => "")
    [⟨idleLoop, .select (.reconnect (.opened 900 0 .unpacked)), [], openedLoop⟩,
      ⟨openedLoop, .accept (.sendMessage "hello"), [.accepted "hello"], queued openedLoop⟩,
      ⟨queued openedLoop, .select (.recv true), [.written "hello"], openedLoop⟩] openedLoop := by
  refine sends_kept 100 1000000 false true false (.snoc (.snoc (.snoc .nil rfl) rfl) rfl) ?_ ?_
  · intro t ht
    rcases mem_cons.1 ht with rfl | ht
    · trivial
    rcases mem_cons.1 ht with rfl | ht
    · exact fun _ => ⟨rfl, by decide⟩
    cases mem_singleton.1 ht
    exact fun _ _ => ⟨rfl, rfl⟩
  · rintro ⟨-, hconnected, -⟩
    cases hconnected

/-- Of a caller that has the channel, a message that is accepted and taken before there is a socket is neither written
nor waiting. -/
theorem hello_lost :
    ∃ (trace : List (LoopStep Unit ℕ)) (loop : WebSocketLoop Unit ℕ),
      Run (step 0 noAtm fun _ => "") idleLoop trace loop ∧ acceptedOf (outputs trace) = ["hello"] ∧
        writtenOf (outputs trace) = [] ∧ messages loop.queue = [] ∧ ¬ SendsKept 0 noAtm (fun _ => "") trace loop := by
  let registered := { idleLoop with registered := true }
  refine ⟨[⟨idleLoop, .register true, [], registered⟩,
    ⟨registered, .accept (.sendMessage "hello"), [.accepted "hello"], queued registered⟩,
    ⟨queued registered, .select (.recv true), [], registered.armTimer⟩], registered.armTimer,
    .snoc (.snoc (.snoc .nil rfl) rfl) rfl, rfl, rfl, rfl, fun hkept => ?_⟩
  have haccounted := hkept.accounted
  exact absurd haccounted (by decide)

end AffinidiTdk.LiveStream
