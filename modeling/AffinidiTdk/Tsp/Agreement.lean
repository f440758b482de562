/-
Two agents and the relationship each of them thinks they have. Control messages travel in order and
arrive once; a message that is no transition for its receiver changes nothing. What the two sides
and the messages on their way can look like is a short list, as long as nobody cancels across
messages that are still on their way.
-/
import AffinidiTdk.Tsp.Relationship

namespace AffinidiTdk.Tsp

open Fallible Function List TspStore

/-! ## The two agents -/

/-- The two agents. -/
inductive Side
  | a
  | b
  deriving DecidableEq

def Side.other : Side → Side
  | .a => .b
  | .b => .a

@[simp] theorem Side.other_other (side : Side) : side.other.other = side := by cases side <;> rfl

@[simp] theorem Side.other_ne (side : Side) : side.other ≠ side := by cases side <;> simp [Side.other]

/-- The agents with their stores, and the messages on their way to each. -/
structure Agents where
  vid : Side → String
  store : Side → TspStore
  inbox : Side → List PackedControl

/-- What the agents do, and the delivery of a message. -/
inductive Action
  | invite (side : Side) (nonce : Bytes)
  | accept (side : Side) (inviteDigest nonce : Bytes)
  | cancel (side : Side)
  | deliver (side : Side)

namespace Agents

/-- What a call of `send_relationship_*` gives is on its way; an error sends nothing. -/
def sent (s : Agents) (side : Side) : Except TspError (PackedControl × TspStore) → Agents
  | .ok (packed, store) =>
    { s with
      store := Function.update s.store side store
      inbox := Function.update s.inbox side.other (s.inbox side.other ++ [packed]) }
  | .error _ => s

/-- A send that the state machine refuses changes nothing. -/
def step (s : Agents) : Action → Agents
  | .invite side nonce => s.sent side ((s.store side).sendRelationshipInvite (s.vid side) (s.vid side.other) nonce)
  | .accept side inviteDigest nonce =>
    s.sent side ((s.store side).sendRelationshipAccept (s.vid side) (s.vid side.other) inviteDigest nonce)
  | .cancel side => s.sent side ((s.store side).sendRelationshipCancel (s.vid side) (s.vid side.other))
  | .deliver side =>
    match s.inbox side with
    | [] => s
    | packed :: rest =>
      { s with
        store := Function.update s.store side
          (((s.store side).receive (s.vid side) packed).toOption.getD (s.store side))
        inbox := Function.update s.inbox side rest }

/-- What a side thinks of the other one. -/
def state (s : Agents) (side : Side) : RelationshipState :=
    (s.store side).relationshipState (s.vid side) (s.vid side.other)

def fresh (vid : Side → String) : Agents := ⟨vid, fun _ => default, fun _ => []⟩

/-- The states of the runs of two fresh agents whose steps are all `ok`. -/
inductive Run (ok : Agents → Action → Prop) (vid : Side → String) : Agents → Prop
  | start : Run ok vid (fresh vid)
  | step {s : Agents} (action : Action) : Run ok vid s → ok s action → Run ok vid (s.step action)

/-- The kinds of the messages on their way to a side. -/
def kinds (s : Agents) (side : Side) : List ControlType :=
    (s.inbox side).map fun packed => packed.control.controlType

/-- A cancel crosses nothing: no message is on its way to the side that cancels, and if the side
cancels its own invite then the other side has one of its own, and no earlier cancel is on its way. -/
def CancelsClear (s : Agents) : Action → Prop
  | .cancel side => s.inbox side = [] ∧ (s.state side = .pending →
      s.state side.other = .pending ∧ .relationshipCancel ∉ s.kinds side.other)
  | _ => True

end Agents

/-! ## One side's view -/

/-- The states of the two sides and the kinds of the messages in between, from one side. -/
structure View where
  own : RelationshipState
  peer : RelationshipState
  out : List ControlType
  inc : List ControlType
  deriving DecidableEq

namespace View

def swap (v : View) : View := ⟨v.peer, v.own, v.inc, v.out⟩

/-- The view after an own message of this kind. -/
def send (v : View) (event : RelationshipEvent) (kind : ControlType) : View :=
  match v.own.transition event with
  | .ok state => { v with own := state, out := v.out ++ [kind] }
  | .error _ => v

def deliver (v : View) : View :=
  match v.inc with
  | [] => v
  | kind :: rest =>
    { v with own := (v.own.transition (TspStore.receiveEvent kind)).toOption.getD v.own, inc := rest }

/-- The views, up to the side. -/
def half : List View :=
  let invite := ControlType.relationshipFormingInvite
  let accept := ControlType.relationshipFormingAccept
  let cancel := ControlType.relationshipCancel
  [⟨.none, .none, [], []⟩, ⟨.pending, .none, [invite], []⟩, ⟨.pending, .inviteReceived, [], []⟩,
   ⟨.bidirectional, .pending, [accept], []⟩, ⟨.bidirectional, .bidirectional, [], []⟩,
   -- crossing invites
   ⟨.pending, .pending, [invite], [invite]⟩, ⟨.pending, .pending, [invite], []⟩, ⟨.pending, .pending, [], []⟩,
   -- a cancel, before or after a new invite
   ⟨.none, .bidirectional, [cancel], []⟩, ⟨.none, .pending, [cancel], []⟩, ⟨.none, .pending, [accept, cancel], []⟩,
   ⟨.none, .pending, [invite, cancel], []⟩, ⟨.pending, .bidirectional, [cancel, invite], []⟩,
   ⟨.pending, .pending, [cancel, invite], []⟩, ⟨.pending, .pending, [accept, cancel, invite], []⟩,
   ⟨.pending, .pending, [invite, cancel, invite], []⟩]

/-- Every view there is while nobody cancels across a message. -/
def settled : List View := half ++ half.map swap

theorem settled_swap : ∀ v ∈ settled, v.swap ∈ settled := by decide

theorem settled_invite : ∀ v ∈ settled, v.send .sendInvite .relationshipFormingInvite ∈ settled := by decide

theorem settled_accept : ∀ v ∈ settled, v.send .sendAccept .relationshipFormingAccept ∈ settled := by decide

theorem settled_cancel : ∀ v ∈ settled, v.inc = [] →
    (v.own = .pending → v.peer = .pending ∧ .relationshipCancel ∉ v.out) →
    v.send .sendCancel .relationshipCancel ∈ settled := by decide

theorem settled_deliver : ∀ v ∈ settled, v.deliver ∈ settled := by decide

theorem settled_agrees : ∀ v ∈ settled, v.out = [] → v.inc = [] →
    (v.own = .bidirectional ↔ v.peer = .bidirectional) := by
  decide

end View

/-! ## The agents as their views -/

namespace Agents

variable {s : Agents} {vid : Side → String}

def view (s : Agents) (side : Side) : View := ⟨s.state side, s.state side.other, s.kinds side.other, s.kinds side⟩

theorem view_other (s : Agents) (side : Side) : s.view side.other = (s.view side).swap := by
  unfold view View.swap
  rw [Side.other_other]

/-- Every message is from the other side. -/
def Addressed (s : Agents) : Prop :=
  ∀ side, ∀ packed ∈ s.inbox side, packed.receiver = s.vid side ∧ packed.sender = s.vid side.other

theorem Addressed.sent (h : s.Addressed) {side : Side} {control : ControlMessage} {event : RelationshipEvent} :
    (s.sent side ((s.store side).sendControl (s.vid side) (s.vid side.other) control event)).Addressed := by
  cases hresult : (s.store side).sendControl (s.vid side) (s.vid side.other) control event with
  | error e => exact h
  | ok result =>
    obtain ⟨packed, store⟩ := result
    obtain ⟨_, -, hpacked⟩ := bind_eq_ok_iff.1 hresult
    cases pure_eq_ok_iff.1 hpacked
    intro side' p hp
    by_cases hside : side' = side.other
    · subst hside
      simp only [Agents.sent, update_self, mem_append, mem_singleton] at hp
      rcases hp with hp | rfl
      · exact h _ p hp
      · exact ⟨rfl, by rw [Side.other_other]; rfl⟩
    · simp only [Agents.sent, update_of_ne hside] at hp
      exact h side' p hp

theorem view_sent (side : Side) (control : ControlMessage) (event : RelationshipEvent) :
    (s.sent side ((s.store side).sendControl (s.vid side) (s.vid side.other) control event)).view side =
      (s.view side).send event control.controlType := by
  unfold View.send
  cases hresult : (s.store side).sendControl (s.vid side) (s.vid side.other) control event with
  | error e =>
    have herror : ∃ invalid, (s.state side).transition event = .error invalid := by
      unfold sendControl at hresult
      cases htransition : (s.store side).transitionRelationship (s.vid side) (s.vid side.other) event with
      | error e => exact transitionRelationship_eq_error htransition
      | ok _ =>
        rw [htransition] at hresult
        cases hresult
    obtain ⟨invalid, hinvalid⟩ := herror
    show s.view side = match (s.state side).transition event with
      | .ok state => { s.view side with own := state, out := (s.view side).out ++ [control.controlType] }
      | .error _ => s.view side
    rw [hinvalid]
  | ok result =>
    obtain ⟨packed, store⟩ := result
    obtain ⟨⟨newState, store'⟩, htransition, hpacked⟩ := bind_eq_ok_iff.1 hresult
    cases pure_eq_ok_iff.1 hpacked
    obtain ⟨hstate, hstore⟩ := transitionRelationship_eq_ok htransition
    show _ = match (s.state side).transition event with
      | .ok state => { s.view side with own := state, out := (s.view side).out ++ [control.controlType] }
      | .error _ => s.view side
    rw [show (s.state side).transition event = _ from hstate]
    simp only [view, state, kinds, Agents.sent, update_self, update_of_ne (Side.other_ne side),
      update_of_ne (Side.other_ne side).symm, hstore, map_append, map_cons, map_nil]

theorem view_deliver (h : s.Addressed) (side : Side) :
    (s.step (.deliver side)).view side = (s.view side).deliver := by
  cases hinbox : s.inbox side with
  | nil =>
    have hkinds : s.kinds side = [] := by rw [kinds, hinbox]; rfl
    simp only [step, hinbox, View.deliver, view, hkinds]
  | cons packed rest =>
    obtain ⟨hreceiver, hsender⟩ := h side packed (by rw [hinbox]; exact mem_cons_self)
    have hkinds : s.kinds side = packed.control.controlType :: rest.map fun p => p.control.controlType := by
      rw [kinds, hinbox]
      rfl
    -- the store after the message, whether it was a transition or not
    have hstate : (((s.store side).receive (s.vid side) packed).toOption.getD (s.store side)).relationshipState
        (s.vid side) (s.vid side.other) =
        ((s.state side).transition (receiveEvent packed.control.controlType)).toOption.getD
          (s.state side) := by
      unfold receive handleControl
      rw [if_neg (not_not_intro hreceiver), hsender]
      cases htransition : (s.store side).transitionRelationship (s.vid side) (s.vid side.other)
          (receiveEvent packed.control.controlType) with
      | error e =>
        obtain ⟨invalid, hinvalid⟩ := transitionRelationship_eq_error htransition
        rw [show (s.state side).transition _ = _ from hinvalid]
        rfl
      | ok result =>
        obtain ⟨newState, store'⟩ := result
        obtain ⟨hvalid, hstore⟩ := transitionRelationship_eq_ok htransition
        rw [show (s.state side).transition _ = _ from hvalid]
        exact hstore
    simp only [step, hinbox, View.deliver, view, hkinds]
    simp only [state, kinds, update_self, update_of_ne (Side.other_ne side)]
    rw [hstate]
    rfl

theorem Addressed.deliver (h : s.Addressed) (side : Side) : (s.step (.deliver side)).Addressed := by
  cases hinbox : s.inbox side with
  | nil =>
    simp only [step, hinbox]
    exact h
  | cons packed rest =>
    simp only [step, hinbox]
    intro side' p hp
    dsimp only at hp
    by_cases hside : side' = side
    · subst hside
      rw [update_self] at hp
      exact h side' p (by rw [hinbox]; exact mem_cons_of_mem _ hp)
    · rw [update_of_ne hside] at hp
      exact h side' p hp

/-! ## Every run -/

/-- What is true of the agents while nobody cancels across a message. -/
structure Settled (s : Agents) : Prop where
  addressed : s.Addressed
  view : ∀ side, s.view side ∈ View.settled

theorem Settled.of_view (side : Side) (haddressed : s.Addressed) (hview : s.view side ∈ View.settled) :
    s.Settled := by
  refine ⟨haddressed, fun side' => ?_⟩
  by_cases hside : side' = side
  · rw [hside]
    exact hview
  · have hother : side' = side.other := by
      cases side <;> cases side' <;> first | rfl | exact absurd rfl hside
    rw [hother, view_other]
    exact View.settled_swap _ hview

/-- A step that crosses no cancel keeps the two sides settled. -/
theorem Settled.step (h : s.Settled) {action : Action} (hclear : s.CancelsClear action) :
    (s.step action).Settled := by
  cases action with
  | invite side nonce =>
    refine .of_view side h.addressed.sent ?_
    rw [Agents.step, sendRelationshipInvite, view_sent]
    exact View.settled_invite _ (h.view side)
  | accept side inviteDigest nonce =>
    refine .of_view side h.addressed.sent ?_
    rw [Agents.step, sendRelationshipAccept, view_sent]
    exact View.settled_accept _ (h.view side)
  | cancel side =>
    obtain ⟨hinbox, hpending⟩ := hclear
    refine .of_view side h.addressed.sent ?_
    rw [Agents.step, sendRelationshipCancel, view_sent]
    exact View.settled_cancel _ (h.view side) (by simp [Agents.view, kinds, hinbox]) hpending
  | deliver side =>
    refine .of_view side (h.addressed.deliver side) ?_
    rw [view_deliver h.addressed]
    exact View.settled_deliver _ (h.view side)

/-- So does every run of such steps. -/
theorem Settled.run (h : Run CancelsClear vid s) : s.Settled := by
  induction h with
  | start =>
    refine .of_view .a (by rintro side packed ⟨⟩) ?_
    show (⟨.none, .none, [], []⟩ : View) ∈ View.settled
    decide
  | step action _ hclear ih => exact ih.step hclear

/-- With no message on its way, one side thinks the relationship is bidirectional exactly when the
other one does, in every run in which no cancel crosses a message. -/
theorem relationships_agree (hrun : Run CancelsClear vid s) (hquiet : ∀ side, s.inbox side = []) :
    s.state .a = .bidirectional ↔ s.state .b = .bidirectional :=
  View.settled_agrees _ ((Settled.run hrun).view .a) (by simp [view, kinds, hquiet]) (by simp [view, kinds, hquiet])

/-! ## Alice and Bob -/

def after (s : Agents) (actions : List Action) : Agents := actions.foldl step s

def strangers : Agents := fresh fun side => if side = .a then "did:ex:alice" else "did:ex:bob"

/-- An invite and its answer: both sides agree. -/
theorem relationships_agree_handshake :
    let s := strangers.after [.invite .a [1], .deliver .b, .accept .b [7] [2], .deliver .a]
    s.state .a = .bidirectional ∧ s.state .b = .bidirectional := by
  intro s
  have hrun : Run CancelsClear strangers.vid s :=
    .step (.deliver .a) (.step (.accept .b [7] [2]) (.step (.deliver .b) (.step (.invite .a [1]) .start trivial)
      trivial) trivial) trivial
  have hstate : s.state .a = .bidirectional ∧ s.inbox .a = [] ∧ s.inbox .b = [] := by decide +kernel
  obtain ⟨ha, hinboxA, hinboxB⟩ := hstate
  refine ⟨ha, (relationships_agree hrun fun side => ?_).1 ha⟩
  cases side with
  | a => exact hinboxA
  | b => exact hinboxB

/-- A cancel behind an invite, which the invited side does not take; a cancel across the other side's
invite, which ends that one; and an answer to an invite that was cancelled and sent again. -/
theorem relationships_disagree :
    (let s := strangers.after [.invite .a [1], .cancel .a, .deliver .b, .deliver .b, .accept .b [7] [2],
      .deliver .a]; s.inbox .a = [] ∧ s.inbox .b = [] ∧ s.state .a = .none ∧ s.state .b = .bidirectional) ∧
    (let s := strangers.after [.invite .a [1], .invite .b [2], .cancel .a, .deliver .a, .deliver .b, .deliver .b,
        .accept .a [7] [3], .deliver .b];
      s.inbox .a = [] ∧ s.inbox .b = [] ∧ s.state .a = .bidirectional ∧ s.state .b = .none) ∧
    (let s := strangers.after [.invite .a [1], .deliver .b, .accept .b [7] [2], .cancel .a, .invite .a [3],
      .deliver .a, .deliver .b, .deliver .b];
      s.inbox .a = [] ∧ s.inbox .b = [] ∧ s.state .a = .bidirectional ∧ s.state .b = .inviteReceived) := by
  decide +kernel

end Agents

end AffinidiTdk.Tsp
