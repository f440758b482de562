/-
The watchdog of the SDK's socket task. It closes a socket that owes a pong, but no step of the loop ever notes that one
is owed: the flag is only cleared, by a pong and by a new connection. So no tick closes a socket, and a connection whose
other end is gone without a word is pinged on.
-/
import AffinidiTdk.LiveStream.Loop

namespace AffinidiTdk.LiveStream

open WebSocketLoop

open Machine (Taken Run)

/-! ## What is promised -/

section Promise

variable {Metadata Sender : Type}

def Tick (t : LoopStep Metadata Sender) : Prop := t.input = .select .watchdog

def Pong (t : LoopStep Metadata Sender) : Prop := t.input = .select (.inbound (.frame .pong))

/-- The tick follows another one on the same socket, and no pong came in between. -/
def MissesPong (trace : List (LoopStep Metadata Sender)) (second : LoopStep Metadata Sender) : Prop :=
  ∃ earlier first between later, trace = earlier ++ first :: (between ++ second :: later) ∧ Tick first ∧ Tick second ∧
    ∀ t ∈ between, t.before.connected = true ∧ ¬ Tick t ∧ ¬ Pong t

/-- The tick closes the socket, tells the waiting requests, and leaves the loop to connect again. -/
structure Detects (t : LoopStep Metadata Sender) : Prop where
  closed : .closed ∈ t.output
  disconnected : t.after.connected = false
  failed : ∀ sender request, t.before.transport.Awaits sender request → .handed (.reply sender .disconnected) ∈ t.output
  scheduled : t.after.armTimer.connectDelayTimer = some t.before.backoffDelay.connectDelay

/-- Each tick among the steps has its pong before the next one. -/
def Answered (steps : List (LoopStep Metadata Sender)) : Prop :=
  ∀ earlier tick later, steps = earlier ++ tick :: later → Tick tick →
    ∃ quiet pong rest, later = quiet ++ pong :: rest ∧ Pong pong ∧ ∀ t ∈ quiet, ¬ Tick t

/-- At the tick, all earlier ones on the same socket have had their pong. -/
def AnsweredSoFar (trace : List (LoopStep Metadata Sender)) (tick : LoopStep Metadata Sender) : Prop :=
  ∃ earlier steps later, trace = earlier ++ (steps ++ tick :: later) ∧ Tick tick ∧ Answered steps ∧
    (∀ t ∈ steps, t.before.connected = true) ∧ ∀ t, earlier.getLast? = some t → t.before.connected = false

end Promise

/-! ## The flag -/

namespace WebSocketLoop

variable {Metadata Sender : Type} {messageSize : UInt64} {atm : Atm Metadata} {lossy : List UInt8 → String}
variable {loop : WebSocketLoop Metadata Sender} {r : List (LoopOutput Metadata Sender) × WebSocketLoop Metadata Sender}

theorem handleConnection_awaitingPong (connection : Connection) (h : loop.awaitingPong = false) :
    (loop.handleConnection connection).2.awaitingPong = false := by
  rcases loop.handleConnection_cases connection with ⟨_, -, -, heq⟩ | ⟨_, _, _, -, heq, -⟩ |
    ⟨_, _, _, _, -, -, -, -, heq⟩ | ⟨_, _, _, _, -, -, -, -, heq⟩
  · rw [heq]
    exact h
  · rw [heq]
    rfl
  · rw [heq]
    rfl
  · rw [heq]
    exact h

theorem handleCommand_awaitingPong (written : Bool) (command : LoopCommand Sender) (h : loop.awaitingPong = false) :
    (handleCommand messageSize written loop command).2.awaitingPong = false := by
  cases command with
  | notifyConnection sender =>
    show (if loop.connected then _ else _ : _ × WebSocketLoop Metadata Sender).2.awaitingPong = false
    split_ifs
    · exact h
    · exact h
  | sendMessage message => exact h
  | stop => exact h
  | request command => exact h

theorem handleInboundMessage_awaitingPong (inbound : Inbound) (h : loop.awaitingPong = false) :
    (loop.handleInboundMessage messageSize atm lossy inbound).2.awaitingPong = false := by
  cases inbound with
  | frame frame =>
    cases frame with
    | pong => rfl
    | _ => exact h
  | reset => exact h
  | error => exact h

theorem watchdog_eq (loop : WebSocketLoop Metadata Sender) (h : loop.awaitingPong = false) :
    loop.watchdog = ([.ping], loop) := by
  unfold watchdog
  rw [if_neg (by simp [h])]

theorem selectBranch_awaitingPong {branch : Branch} (hselect : selectBranch messageSize atm lossy loop branch = some r)
    (h : loop.awaitingPong = false) : r.2.awaitingPong = false := by
  cases branch with
  | reconnect connection =>
    rw [(selectBranch_reconnect hselect).2]
    exact handleConnection_awaitingPong connection h
  | refresh =>
    rw [selectBranch_refresh hselect]
    exact h
  | watchdog =>
    rw [(selectBranch_watchdog hselect).2, watchdog_eq loop h]
    exact h
  | recv written =>
    obtain ⟨command, queue, -, rfl⟩ := selectBranch_recv hselect
    exact handleCommand_awaitingPong written command h
  | inbound inbound =>
    rw [selectBranch_inbound hselect]
    exact handleInboundMessage_awaitingPong inbound h

theorem step_awaitingPong {event : LoopEvent Sender} (hstep : step messageSize atm lossy loop event = some r)
    (h : loop.awaitingPong = false) : r.2.awaitingPong = false := by
  cases event with
  | accept command =>
    rw [(step_accept hstep).2]
    exact h
  | register stored =>
    cases hstep
    exact h
  | finish | hangUp =>
    obtain ⟨-, heq⟩ := Option.ite_none_right_eq_some.1 hstep
    cases heq
    exact h
  | select branch =>
    obtain ⟨-, timer, hselect⟩ := step_select hstep
    exact selectBranch_awaitingPong hselect h

theorem step_watchdog (hstep : step messageSize atm lossy loop (.select .watchdog) = some r)
    (h : loop.awaitingPong = false) : r.1 = [.ping] ∧ r.2.connected = true := by
  obtain ⟨-, timer, hselect⟩ := step_select hstep
  obtain ⟨hconnected, rfl⟩ := selectBranch_watchdog hselect
  rw [watchdog_eq { loop with connectDelayTimer := timer } h]
  exact ⟨rfl, hconnected⟩

end WebSocketLoop

/-! ## Runs -/

section Runs

variable {Metadata Sender : Type} {messageSize : UInt64} {atm : Atm Metadata} {lossy : List UInt8 → String}

theorem tick_connected {trace : List (LoopStep Metadata Sender)} {start loop : WebSocketLoop Metadata Sender}
    (hstart : start.awaitingPong = false)
    (h : Run (step messageSize atm lossy) start trace loop) {t : LoopStep Metadata Sender}
    (ht : t ∈ trace) (htick : Tick t) : t.output = [.ping] ∧ t.after.connected = true := by
  have hpong : t.before.awaitingPong = false :=
    h.inv_before hstart (fun _ _ output after hstep hbefore =>
      show (output, after).2.awaitingPong = false from step_awaitingPong hstep hbefore) t ht
  have hstep := h.taken t ht
  rw [htick] at hstep
  exact step_watchdog hstep hpong

/-- **When missed pongs are detected**: in a run where no socket misses one. -/
theorem missedPongs_detected_iff (limitCount : UInt32) (limitBytes : UInt64)
    (directChannel skipToggleLiveDelivery skipUnpackMessages : Bool) {trace : List (LoopStep Metadata Sender)}
    {loop : WebSocketLoop Metadata Sender}
    (h : Run (step messageSize atm lossy) (start limitCount limitBytes directChannel
      skipToggleLiveDelivery skipUnpackMessages) trace loop) :
    ((∀ t, MissesPong trace t → Detects t) ∧ ∀ t, AnsweredSoFar trace t → t.after.connected = true) ↔
      ∀ t, ¬ MissesPong trace t := by
  constructor
  · rintro ⟨hdetects, -⟩ t hmisses
    have hdisconnected := (hdetects t hmisses).disconnected
    obtain ⟨earlier, first, between, later, rfl, -, htick, -⟩ := hmisses
    have hconnected := (tick_connected rfl h (by simp) htick).2
    rw [hconnected] at hdisconnected
    cases hdisconnected
  · intro hnone
    refine ⟨fun t hmisses => absurd hmisses (hnone t), ?_⟩
    rintro t ⟨earlier, steps, later, rfl, htick, -⟩
    exact (tick_connected rfl h (by simp) htick).2

end Runs

/-! ## A socket whose other end is gone -/

def pinged (loop : WebSocketLoop Unit ℕ) : LoopStep Unit ℕ := ⟨loop, .select .watchdog, [.ping], loop⟩

def idleTrace : List (LoopStep Unit ℕ) :=
  [⟨idleLoop, .select (.reconnect (.opened 900 0 .unpacked)), [], openedLoop⟩, pinged openedLoop, pinged openedLoop]

theorem idleTrace_run : Run (step 0 noAtm fun _ => "") idleLoop idleTrace openedLoop :=
  .snoc (.snoc (.snoc .nil rfl) rfl) rfl

theorem idleTrace_misses : MissesPong idleTrace (pinged openedLoop) :=
  ⟨[⟨idleLoop, .select (.reconnect (.opened 900 0 .unpacked)), [], openedLoop⟩], pinged openedLoop, [], [], rfl, rfl,
    rfl, fun _ ht => by cases ht⟩

/-- The socket that misses a pong is still there after the second tick. -/
theorem idle_undetected :
    ∃ (trace : List (LoopStep Unit ℕ)) (loop : WebSocketLoop Unit ℕ) (t : LoopStep Unit ℕ),
      Run (step 0 noAtm fun _ => "") idleLoop trace loop ∧ MissesPong trace t ∧
        t.after.connected = true ∧ ¬ Detects t := by
  refine ⟨idleTrace, openedLoop, pinged openedLoop, idleTrace_run, idleTrace_misses, rfl, fun hdetects => ?_⟩
  exact absurd hdetects.disconnected (by decide)

/-- The same with a pong between the two ticks. -/
def answeredTrace : List (LoopStep Unit ℕ) :=
  [⟨idleLoop, .select (.reconnect (.opened 900 0 .unpacked)), [], openedLoop⟩, pinged openedLoop,
    ⟨openedLoop, .select (.inbound (.frame .pong)), [], openedLoop⟩, pinged openedLoop]

theorem answeredTrace_run : Run (step 0 noAtm fun _ => "") idleLoop answeredTrace openedLoop :=
  .snoc (.snoc (.snoc (.snoc .nil rfl) rfl) rfl) rfl

theorem answeredTrace_hears (t : LoopStep Unit ℕ) : ¬ MissesPong answeredTrace t := by
  rintro ⟨earlier, first, between, later, heq, hfirst, hsecond, hquiet⟩
  rcases earlier with _ | ⟨a, _ | ⟨b, _ | ⟨c, earlier⟩⟩⟩
  · obtain ⟨rfl, -⟩ := List.cons.inj heq
    cases hfirst
  · -- between the first tick and the last one stands the pong
    obtain ⟨-, heq⟩ := List.cons.inj heq
    obtain ⟨-, heq⟩ := List.cons.inj heq
    rcases between with _ | ⟨d, between⟩
    · cases heq
      cases hsecond
    · obtain ⟨rfl, -⟩ := List.cons.inj heq
      exact (hquiet _ List.mem_cons_self).2.2 rfl
  · obtain ⟨-, heq⟩ := List.cons.inj heq
    obtain ⟨-, heq⟩ := List.cons.inj heq
    obtain ⟨rfl, -⟩ := List.cons.inj heq
    cases hfirst
  · have hlength := congrArg List.length heq
    simp [answeredTrace] at hlength
    omega

/-- Where the pong comes, the promise is kept. -/
theorem answered_promise :
    (∀ t, MissesPong answeredTrace t → Detects t) ∧ ∀ t, AnsweredSoFar answeredTrace t → t.after.connected = true :=
  (missedPongs_detected_iff 100 1000000 false true false answeredTrace_run).2 answeredTrace_hears

end AffinidiTdk.LiveStream
