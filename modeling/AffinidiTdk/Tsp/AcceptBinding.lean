/-
Which invite an accept answers. The network keeps every control message that was ever sent and may
deliver any of them at any time, any number of times. An accept names the invite it answers by its
digest, and an agent that waits for an answer takes every accept of its peer; the two fit together
exactly when the digest is the one of the invite that is outstanding.
-/
import AffinidiTdk.Tsp.Agreement

namespace AffinidiTdk.Tsp

open Fallible Function List

/-! ## Agents over a network that replays -/

/-- The agents with their stores and every message that was sent. For the record, and read by no
agent: the last invite of each side, what each side was given, for every accept of a side the invite
it was sent in reply to, and those of them that the peer sent since a side's last invite. -/
structure Network where
  vid : Side → String
  store : Side → TspStore
  sent : List PackedControl
  outstanding : Side → Option PackedControl
  received : Side → List PackedControl
  replies : Side → List (PackedControl × PackedControl)
  since : Side → List (PackedControl × PackedControl)

/-- An accept replies to an invite; a message that is delivered is any of those sent. -/
inductive NetworkAction
  | invite (side : Side) (nonce : Bytes)
  | accept (side : Side) (inReplyTo : PackedControl) (nonce : Bytes)
  | cancel (side : Side)
  | deliver (side : Side) (packed : PackedControl)

namespace Network

section

variable (digest : PackedControl → Bytes)

/-- An action that is refused changes nothing. -/
def step (n : Network) : NetworkAction → Network
  | .invite side nonce =>
    match (n.store side).sendRelationshipInvite (n.vid side) (n.vid side.other) nonce with
    | .ok (packed, store) =>
      { n with
        store := Function.update n.store side store
        sent := packed :: n.sent
        outstanding := Function.update n.outstanding side (some packed)
        since := Function.update n.since side [] }
    | .error _ => n
  | .accept side inReplyTo nonce =>
    match (n.store side).sendRelationshipAccept (n.vid side) (n.vid side.other) (digest inReplyTo) nonce with
    | .ok (packed, store) =>
      { n with
        store := Function.update n.store side store
        sent := packed :: n.sent
        replies := Function.update n.replies side ((packed, inReplyTo) :: n.replies side)
        since := Function.update n.since side.other ((packed, inReplyTo) :: n.since side.other) }
    | .error _ => n
  | .cancel side =>
    match (n.store side).sendRelationshipCancel (n.vid side) (n.vid side.other) with
    | .ok (packed, store) => { n with store := Function.update n.store side store, sent := packed :: n.sent }
    | .error _ => n
  | .deliver side packed =>
    match (n.store side).receive (n.vid side) packed with
    | .ok store =>
      { n with
        store := Function.update n.store side store
        received := Function.update n.received side (packed :: n.received side) }
    | .error _ => n

end

/-- What a side thinks of the other one. -/
def state (n : Network) (side : Side) : RelationshipState :=
    (n.store side).relationshipState (n.vid side) (n.vid side.other)

/-- Nonces of invites are new, an accept answers an invite of the peer that was received, and only
what was sent is delivered. -/
def Proper (n : Network) : NetworkAction → Prop
  | .invite side nonce => ⟨n.vid side, n.vid side.other, .invite nonce⟩ ∉ n.sent
  | .accept side inReplyTo _ => inReplyTo ∈ n.received side ∧ inReplyTo.sender = n.vid side.other ∧
      inReplyTo.control.controlType = .relationshipFormingInvite
  | .cancel _ => True
  | .deliver _ packed => packed ∈ n.sent

def fresh (vid : Side → String) : Network :=
  ⟨vid, fun _ => default, [], fun _ => none, fun _ => [], fun _ => [], fun _ => []⟩

/-- The states of the runs of two fresh agents. -/
inductive Reached (digest : PackedControl → Bytes) (vid : Side → String) : Network → Prop
  | start : Reached digest vid (fresh vid)
  | step {n : Network} (action : NetworkAction) : Reached digest vid n → n.Proper action →
      Reached digest vid (n.step digest action)

/-- The peer sent the message since the invite that is outstanding, and in reply to it. -/
def Answers (n : Network) (side : Side) (packed : PackedControl) : Prop :=
  ∃ invite, n.outstanding side = some invite ∧ (packed, invite) ∈ n.since side

/-! ## What the record says -/

/-- The record of the network is true to what was sent and received. -/
structure Recorded (digest : PackedControl → Bytes) (n : Network) : Prop where
  addressed : ∀ p ∈ n.sent, ∃ side, p.sender = n.vid side ∧ p.receiver = n.vid side.other
  accepts : ∀ p ∈ n.sent, p.control.controlType = .relationshipFormingAccept →
    ∃ side r, p.sender = n.vid side ∧ (p, r) ∈ n.replies side
  threads : ∀ side p r, (p, r) ∈ n.replies side → p.control.threadId = some (digest r)
  known : ∀ side p r, (p, r) ∈ n.replies side → r ∈ n.sent
  heard : ∀ side, ∀ p ∈ n.received side, p ∈ n.sent
  invited : ∀ side, ∀ p ∈ n.outstanding side, p ∈ n.sent
  pending : ∀ side, n.state side = .pending → (n.outstanding side).isSome = true
  since_subset : ∀ side x, x ∈ n.since side → x ∈ n.replies side.other
  current : ∀ side p r, (p, r) ∈ n.replies side.other → n.outstanding side = some r → (p, r) ∈ n.since side

variable {digest : PackedControl → Bytes} {n : Network} {side : Side}

theorem recorded_fresh (vid : Side → String) : Recorded digest (fresh vid) where
  addressed := by rintro p ⟨⟩
  accepts := by rintro p ⟨⟩
  threads := by rintro side p r ⟨⟩
  known := by rintro side p r ⟨⟩
  heard := by rintro side p ⟨⟩
  invited := by rintro side p ⟨⟩
  pending := by rintro side ⟨⟩
  since_subset := by rintro side x ⟨⟩
  current := by rintro side p r ⟨⟩

variable {event : RelationshipEvent}

theorem transition_eq_pending {state : RelationshipState} (h : state.transition event = .ok .pending) :
    event = .sendInvite := by
  cases state <;> cases event <;> first | rfl | cases h

theorem receiveEvent_ne_sendInvite (kind : ControlType) : TspStore.receiveEvent kind ≠ .sendInvite := by
  cases kind <;> simp [TspStore.receiveEvent]

variable {store store' : TspStore} {packed : PackedControl}

theorem sendControl_eq_ok {ourVid theirVid : String} {control : ControlMessage}
    (h : store.sendControl ourVid theirVid control event = .ok (packed, store')) :
    packed = ⟨ourVid, theirVid, control⟩ ∧ (store.relationshipState ourVid theirVid).transition event =
    .ok (store'.relationshipState ourVid theirVid) := by
  obtain ⟨⟨newState, store₁⟩, htransition, hpacked⟩ := bind_eq_ok_iff.1 h
  cases pure_eq_ok_iff.1 hpacked
  obtain ⟨hstate, hstore⟩ := TspStore.transitionRelationship_eq_ok htransition
  rw [hstore]
  exact ⟨rfl, hstate⟩

theorem receive_eq_ok {ourVid : String} (h : store.receive ourVid packed = .ok store') : packed.receiver = ourVid ∧
    (store.relationshipState ourVid packed.sender).transition (TspStore.receiveEvent packed.control.controlType) =
    .ok (store'.relationshipState ourVid packed.sender) := by
  unfold TspStore.receive at h
  split at h
  · cases h
  · rename_i hreceiver
    obtain ⟨⟨newState, store₁⟩, htransition, hpure⟩ := bind_eq_ok_iff.1 h
    obtain rfl := pure_eq_ok_iff.1 hpure
    obtain ⟨hstate, hstore⟩ := TspStore.transitionRelationship_eq_ok htransition
    rw [hstore]
    exact ⟨not_not.1 hreceiver, hstate⟩

theorem Recorded.sender (h : Recorded digest n) (hvid : Function.Injective n.vid) (hsent : packed ∈ n.sent)
    (hreceiver : packed.receiver = n.vid side) : packed.sender = n.vid side.other := by
  obtain ⟨from_, hsender, hreceiver'⟩ := h.addressed packed hsent
  have hside : from_.other = side := hvid (hreceiver'.symm.trans hreceiver)
  rw [hsender, ← hside, Side.other_other]

/-- The log of one side gets one entry more. -/
theorem mem_update_cons {α : Type} {log : Side → List α} {s : Side} {x y : α} :
    x ∈ update log side (y :: log side) s ↔ s = side ∧ x = y ∨ x ∈ log s := by
  by_cases hs : s = side
  · subst hs
    rw [update_self, mem_cons, and_iff_right rfl]
  · rw [update_of_ne hs, or_iff_right fun h => hs h.1]

/-- A step that sends: the state of the sender moves, and who is pending has an invite. -/
theorem pending_update {n' : Network} (h : Recorded digest n)
    (hstore : n'.store = update n.store side store) (hvid : n'.vid = n.vid)
    (hout : ∀ s, s ≠ side → n'.outstanding s = n.outstanding s)
    (hown : store.relationshipState (n.vid side) (n.vid side.other) = .pending → (n'.outstanding side).isSome =
    true) : ∀ s, n'.state s = .pending → (n'.outstanding s).isSome = true := by
  intro s hs
  unfold state at hs
  rw [hstore, hvid] at hs
  by_cases hside : s = side
  · subst hside
    rw [update_self] at hs
    exact hown hs
  · rw [update_of_ne hside] at hs
    rw [hout s hside]
    exact h.pending s hs

theorem Recorded.invite (h : Recorded digest n) {nonce : Bytes} (hproper : n.Proper (.invite side nonce)) :
    Recorded digest (n.step digest (.invite side nonce)) := by
  cases hresult : (n.store side).sendRelationshipInvite (n.vid side) (n.vid side.other) nonce with
  | error e =>
    simp only [step, hresult]
    exact h
  | ok result =>
    obtain ⟨packed, store⟩ := result
    obtain ⟨rfl, hstate⟩ := sendControl_eq_ok hresult
    simp only [step, hresult]
    refine ⟨?_, ?_, h.threads, ?_, ?_, ?_, ?_, ?_, ?_⟩
    · exact forall_mem_cons.2 ⟨⟨side, rfl, rfl⟩, h.addressed⟩
    · exact forall_mem_cons.2 ⟨by rintro ⟨⟩, h.accepts⟩
    · intro s p r hr
      exact mem_cons_of_mem _ (h.known s p r hr)
    · intro s p hp
      exact mem_cons_of_mem _ (h.heard s p hp)
    · intro s p hp
      dsimp only at hp
      by_cases hside : s = side
      · rw [hside, update_self] at hp
        rw [← Option.some.inj hp]
        exact mem_cons_self
      · rw [update_of_ne hside] at hp
        exact mem_cons_of_mem _ (h.invited s p hp)
    · refine pending_update h rfl rfl (fun s hs => update_of_ne hs ..) fun _ => ?_
      dsimp only
      rw [update_self]
      rfl
    · intro s x hx
      dsimp only at hx ⊢
      by_cases hside : s = side
      · rw [hside, update_self] at hx
        cases hx
      · rw [update_of_ne hside] at hx
        exact h.since_subset s x hx
    · intro s p r hr hout
      dsimp only at hr hout ⊢
      by_cases hside : s = side
      · -- no reply is to the new invite
        subst hside
        rw [update_self] at hout
        cases hout
        exact absurd (h.known _ _ _ hr) hproper
      · rw [update_of_ne hside] at hout ⊢
        exact h.current s p r hr hout

theorem Recorded.accept (h : Recorded digest n) {inReplyTo : PackedControl} {nonce : Bytes}
    (hproper : n.Proper (.accept side inReplyTo nonce)) :
    Recorded digest (n.step digest (.accept side inReplyTo nonce)) := by
  cases hresult : (n.store side).sendRelationshipAccept (n.vid side) (n.vid side.other) (digest inReplyTo) nonce with
  | error e =>
    simp only [step, hresult]
    exact h
  | ok result =>
    obtain ⟨packed, store⟩ := result
    obtain ⟨rfl, hstate⟩ := sendControl_eq_ok hresult
    simp only [step, hresult]
    refine ⟨?_, ?_, ?_, ?_, ?_, ?_, ?_, ?_, ?_⟩
    · exact forall_mem_cons.2 ⟨⟨side, rfl, rfl⟩, h.addressed⟩
    · intro p hp haccept
      rcases mem_cons.1 hp with rfl | hp
      · exact ⟨side, inReplyTo, rfl, mem_update_cons.2 (.inl ⟨rfl, rfl⟩)⟩
      · obtain ⟨s, r, hsender, hr⟩ := h.accepts p hp haccept
        exact ⟨s, r, hsender, mem_update_cons.2 (.inr hr)⟩
    · intro s p r hr
      rcases mem_update_cons.1 hr with ⟨-, heq⟩ | hr
      · cases heq
        rfl
      · exact h.threads s p r hr
    · intro s p r hr
      refine mem_cons_of_mem _ ?_
      rcases mem_update_cons.1 hr with ⟨-, heq⟩ | hr
      · cases heq
        exact h.heard side _ hproper.1
      · exact h.known s p r hr
    · intro s p hp
      exact mem_cons_of_mem _ (h.heard s p hp)
    · intro s p hp
      exact mem_cons_of_mem _ (h.invited s p hp)
    · refine pending_update h rfl rfl (fun _ _ => rfl) fun hown => ?_
      rw [hown] at hstate
      cases transition_eq_pending hstate
    · intro s x hx
      rcases mem_update_cons.1 hx with ⟨rfl, rfl⟩ | hx
      · exact mem_update_cons.2 (.inl ⟨Side.other_other _, rfl⟩)
      · exact mem_update_cons.2 (.inr (h.since_subset s x hx))
    · intro s p r hr hout
      rcases mem_update_cons.1 hr with ⟨hside, heq⟩ | hr
      · have hs : s = side.other := by rw [← hside, Side.other_other]
        exact mem_update_cons.2 (.inl ⟨hs, heq⟩)
      · exact mem_update_cons.2 (.inr (h.current s p r hr hout))

theorem Recorded.cancel (h : Recorded digest n) : Recorded digest (n.step digest (.cancel side)) := by
  cases hresult : (n.store side).sendRelationshipCancel (n.vid side) (n.vid side.other) with
  | error e =>
    simp only [step, hresult]
    exact h
  | ok result =>
    obtain ⟨packed, store⟩ := result
    obtain ⟨rfl, hstate⟩ := sendControl_eq_ok hresult
    simp only [step, hresult]
    refine ⟨?_, ?_, h.threads, ?_, ?_, ?_, ?_, h.since_subset, h.current⟩
    · exact forall_mem_cons.2 ⟨⟨side, rfl, rfl⟩, h.addressed⟩
    · exact forall_mem_cons.2 ⟨by rintro ⟨⟩, h.accepts⟩
    · intro s p r hr
      exact mem_cons_of_mem _ (h.known s p r hr)
    · intro s p hp
      exact mem_cons_of_mem _ (h.heard s p hp)
    · intro s p hp
      exact mem_cons_of_mem _ (h.invited s p hp)
    · refine pending_update h rfl rfl (fun _ _ => rfl) fun hown => ?_
      rw [hown] at hstate
      cases transition_eq_pending hstate

theorem Recorded.deliver (h : Recorded digest n) (hvid : Function.Injective n.vid)
    (hproper : n.Proper (.deliver side packed)) : Recorded digest (n.step digest (.deliver side packed)) := by
  cases hresult : (n.store side).receive (n.vid side) packed with
  | error e =>
    simp only [step, hresult]
    exact h
  | ok store =>
    obtain ⟨hreceiver, hstate⟩ := receive_eq_ok hresult
    rw [h.sender hvid hproper hreceiver] at hstate
    simp only [step, hresult]
    refine ⟨h.addressed, h.accepts, h.threads, h.known, ?_, h.invited, ?_, h.since_subset, h.current⟩
    · intro s p hp
      rcases mem_update_cons.1 hp with ⟨-, rfl⟩ | hp
      · exact hproper
      · exact h.heard s p hp
    · refine pending_update h rfl rfl (fun _ _ => rfl) fun hown => ?_
      rw [hown] at hstate
      exact absurd (transition_eq_pending hstate) (receiveEvent_ne_sendInvite _)

theorem step_vid (n : Network) (action : NetworkAction) : (n.step digest action).vid = n.vid := by
  cases action <;> simp only [step] <;> split <;> rfl

/-- In every run the record is true. -/
theorem Recorded.reached {vid : Side → String} (hvid : Function.Injective vid) (h : Reached digest vid n) :
    Recorded digest n ∧ n.vid = vid := by
  induction h with
  | start => exact ⟨recorded_fresh vid, rfl⟩
  | step action _ hproper ih =>
    obtain ⟨hrecorded, rfl⟩ := ih
    refine ⟨?_, step_vid _ action⟩
    cases action with
    | invite side nonce => exact hrecorded.invite hproper
    | accept side inReplyTo nonce => exact hrecorded.accept hproper
    | cancel side => exact hrecorded.cancel
    | deliver side packed => exact hrecorded.deliver hvid hproper

/-! ## When an accept fits -/

/-- An agent that a delivered accept moves from pending to bidirectional: the accept was sent by the
peer since the invite that is outstanding, and in reply to it, exactly when its thread id is that
invite's digest. -/
theorem accept_answers_iff {vid : Side → String} (hvid : Function.Injective vid) (hreached : Reached digest vid n)
    (hdigest : ∀ p ∈ n.sent, ∀ q ∈ n.sent, digest p = digest q → p = q) {packed : PackedControl}
    (hsent : packed ∈ n.sent) (hpending : n.state side = .pending)
    (hmoves : (n.step digest (.deliver side packed)).state side = .bidirectional) :
    n.Answers side packed ↔ ∃ invite, n.outstanding side = some invite ∧
      packed.control.threadId = some (digest invite) := by
  obtain ⟨h, rfl⟩ := Recorded.reached hvid hreached
  constructor
  · rintro ⟨invite, hout, hsince⟩
    exact ⟨invite, hout, h.threads _ _ _ (h.since_subset side _ hsince)⟩
  · rintro ⟨invite, hout, hthread⟩
    refine ⟨invite, hout, ?_⟩
    cases hresult : (n.store side).receive (n.vid side) packed with
    | error e =>
      simp only [step, hresult] at hmoves
      rw [show n.state side = .bidirectional from hmoves] at hpending
      cases hpending
    | ok store =>
      simp only [step, hresult] at hmoves
      obtain ⟨hreceiver, hstate⟩ := receive_eq_ok hresult
      have hsender := h.sender hvid hsent hreceiver
      rw [hsender] at hstate
      have hbidirectional : store.relationshipState (n.vid side) (n.vid side.other) = .bidirectional := by
        simpa [state] using hmoves
      rw [hbidirectional, show (n.store side).relationshipState _ _ = _ from hpending] at hstate
      have haccept : packed.control.controlType = .relationshipFormingAccept := by
        cases hkind : packed.control.controlType with
        | relationshipFormingAccept => rfl
        | relationshipFormingInvite | relationshipCancel =>
          rw [hkind] at hstate
          cases hstate
      obtain ⟨from_, r, hfrom, hr⟩ := h.accepts packed hsent haccept
      obtain rfl : from_ = side.other := hvid (hfrom.symm.trans hsender)
      obtain rfl : r = invite := hdigest r (h.known _ _ _ hr) invite (h.invited side invite hout)
        (Option.some.inj ((h.threads _ _ _ hr).symm.trans hthread))
      exact h.current side packed r hr hout

/-! ## Two invites -/

/-- The nonce stands for the digest. -/
def nonceOf (packed : PackedControl) : Bytes := packed.control.nonce.getD []

def aliceBob (side : Side) : String := if side = .a then "did:ex:alice" else "did:ex:bob"

def inviteOf (nonce : Bytes) : PackedControl := ⟨aliceBob .a, aliceBob .b, .invite nonce⟩

def acceptOf (inviteDigest nonce : Bytes) : PackedControl := ⟨aliceBob .b, aliceBob .a, .accept inviteDigest nonce⟩

def after (n : Network) (actions : List NetworkAction) : Network := actions.foldl (step nonceOf) n

/-- Alice has invited Bob, and Bob has accepted. -/
def answered : Network :=
  (fresh aliceBob).after [.invite .a [1], .deliver .b (inviteOf [1]), .accept .b (inviteOf [1]) [2]]

/-- Alice has cancelled and invited again. -/
def invitedAgain : Network := answered.after [.cancel .a, .invite .a [3]]

theorem aliceBob_injective : Function.Injective aliceBob := by
  intro s t hst
  cases s <;> cases t <;> first | rfl | exact absurd hst (by decide)

theorem reached_answered : Reached nonceOf aliceBob answered := by
  refine .step (.accept .b (inviteOf [1]) [2])
    (.step (.deliver .b (inviteOf [1])) (.step (.invite .a [1]) .start ?_) ?_)
    ⟨?_, rfl, rfl⟩
  · exact not_mem_nil
  · exact mem_cons_self
  · exact mem_cons_self

/-- The accept that Bob has sent answers the invite that Alice has outstanding. -/
theorem accept_answers_first_invite : answered.Answers .a (acceptOf [1] [2]) := by
  have hstate : answered.state .a = .pending ∧
      (answered.step nonceOf (.deliver .a (acceptOf [1] [2]))).state .a = .bidirectional ∧
      answered.outstanding .a = some (inviteOf [1]) ∧ answered.sent = [acceptOf [1] [2], inviteOf [1]] := by
    decide +kernel
  obtain ⟨hpending, hmoves, hout, hsent⟩ := hstate
  refine (accept_answers_iff aliceBob_injective reached_answered ?_ ?_ hpending hmoves).2 ⟨inviteOf [1], hout, rfl⟩
  · rw [hsent]
    decide +kernel
  · rw [hsent]
    exact mem_cons_self

/-- The same accept, delivered after Alice has cancelled and invited again, answers the first invite
and is taken for the second. -/
theorem accept_answers_cancelled_invite :
    Reached nonceOf aliceBob invitedAgain ∧ invitedAgain.state .a = .pending ∧ acceptOf [1] [2] ∈ invitedAgain.sent ∧
      (invitedAgain.step nonceOf (.deliver .a (acceptOf [1] [2]))).state .a = .bidirectional ∧
      invitedAgain.replies .b = [(acceptOf [1] [2], inviteOf [1])] ∧
      invitedAgain.outstanding .a = some (inviteOf [3]) ∧ ¬invitedAgain.Answers .a (acceptOf [1] [2]) := by
  have hstate : invitedAgain.state .a = .pending ∧ acceptOf [1] [2] ∈ invitedAgain.sent ∧
      (invitedAgain.step nonceOf (.deliver .a (acceptOf [1] [2]))).state .a = .bidirectional ∧
      invitedAgain.replies .b = [(acceptOf [1] [2], inviteOf [1])] ∧
      invitedAgain.outstanding .a = some (inviteOf [3]) ∧ invitedAgain.since .a = [] := by
    decide +kernel
  obtain ⟨hpending, hsent, hmoves, hreplies, hout, hsince⟩ := hstate
  have hreached : Reached nonceOf aliceBob invitedAgain := by
    refine .step (.invite .a [3]) (.step (.cancel .a) reached_answered trivial) ?_
    show inviteOf [3] ∉ (answered.step nonceOf (.cancel .a)).sent
    decide +kernel
  refine ⟨hreached, hpending, hsent, hmoves, hreplies, hout, ?_⟩
  rintro ⟨invite, -, hmem⟩
  rw [hsince] at hmem
  cases hmem

end Network

end AffinidiTdk.Tsp
