/-
The threaded resolver against the simple one: the runs in which the channel has room for every command, and no
command gets in between the commands of one insertion that it concerns, are runs of the simple resolver.
-/
import AffinidiTdk.Secrets.Threaded

namespace AffinidiTdk.Secrets

open List AffinidiTdk.Secrets.System Option
open SeqObject

/-! ## When a step is clear -/

/-- The command reads or writes the secret with an id; the number of secrets is a matter of every id. -/
def SecretTaskCommand.Concerns : SecretTaskCommand → String → Prop
  | .addSecret secret, id => secret.id = id
  | .addSecrets secrets, id => ∃ secret ∈ secrets, secret.id = id
  | .removeSecret keyId, id => keyId = id
  | .getSecret keyId _, id => keyId = id
  | .findSecrets keys _, id => id ∈ keys
  | .secretsStored _, _ => True
  | .terminate, _ => False

namespace System

/-- The call `j` is in its loop, past some secrets and with others to come. -/
def Unfinished (s : System) (j : ℕ) (passed : List Secret) : Prop :=
  ∃ call secret rest, s.calls j = some (call, .adding passed (secret :: rest))

/-- The command that a `try_send` of the call `i` is about. -/
def nextCommand (s : System) (i : ℕ) : Option SecretTaskCommand :=
  match s.calls i with
  | some (_, .adding _ (secret :: _)) => some (.addSecret secret)
  | some (_, .asking command) => some command
  | _ => none

/-- Nothing goes wrong in a step: the channel has room for the command, and the command does not concern a secret
that another insertion, not finished yet, has put in already. -/
def Clear (s : System) : Action → Prop
  | .trySend i => s.queue.length < channelSize ∧ ∀ command, s.nextCommand i = some command →
      ∀ j passed, j ≠ i → s.Unfinished j passed → ∀ secret ∈ passed, ¬ command.Concerns secret.id
  | _ => True

/-- The system once a command of the call `i` is in the channel. -/
def sent (s : System) (i : ℕ) (call : Call) (stage : Stage) (command : SecretTaskCommand) : System :=
  { s.at_ i call stage with queue := s.queue ++ [command] }

/-! ## What the channel amounts to -/

/-- The secrets once the commands in the channel are handled. -/
def drain (cache : SecretMap) (queue : List SecretTaskCommand) : SecretMap :=
  queue.foldl (fun cache command => (handleMsg cache (some command)).cache) cache

/-- The replies that the commands in the channel will have. -/
def due (cache : SecretMap) : List SecretTaskCommand → List (ℕ × Answer)
  | [] => []
  | command :: queue =>
    (handleMsg cache (some command)).sent.toList ++ due (handleMsg cache (some command)).cache queue

theorem drain_snoc (cache : SecretMap) (queue : List SecretTaskCommand) (command : SecretTaskCommand) :
    drain cache (queue ++ [command]) = (handleMsg (drain cache queue) (some command)).cache := by
  simp [drain]

theorem due_snoc (cache : SecretMap) (queue : List SecretTaskCommand) (command : SecretTaskCommand) :
    due cache (queue ++ [command]) = due cache queue ++
      (handleMsg (drain cache queue) (some command)).sent.toList := by
  induction queue generalizing cache with
  | nil => simp [due, drain]
  | cons c queue ih =>
    show (handleMsg cache (some c)).sent.toList ++ due _ (queue ++ [command]) = _
    rw [ih, ← append_assoc]
    rfl

end System

/-! ## A request against the simple call -/

variable {i : ℕ} {call : Call} {command : SecretTaskCommand} {known : SecretMap}

theorem answer_of_request {j : ℕ} {answer : Answer} (hstart : call.start i = .asking command) {known' : SecretMap}
    (hagree : ∀ id, command.Concerns id → known.get? id = known'.get? id)
    (hsent : (handleMsg known (some command)).sent = some (j, answer)) :
    j = i ∧ (simpleCall call known').1 = call.ofAnswer answer := by
  have hall : (∀ id : String, known.get? id = known'.get? id) → known = known' := OrdMap.ext_get?
  cases call with
  | insert secret => cases hstart
  | insertVec secrets => cases hstart
  | getSecret secretId =>
    cases hstart
    cases hsent
    exact ⟨rfl, congrArg Reply.secret (hagree secretId rfl).symm⟩
  | findSecrets secretIds =>
    cases hstart
    cases hsent
    refine ⟨rfl, congrArg Reply.found (filter_congr fun sid hsid => ?_)⟩
    rw [hagree sid hsid]
  | removeSecret secretId =>
    cases hstart
    cases hsent
  | len | isEmpty =>
    cases hstart
    cases hsent
    obtain rfl := hall fun id => hagree id trivial
    exact ⟨rfl, rfl⟩

theorem get?_of_request (hstart : call.start i = .asking command) (known known' : SecretMap) (id : String) :
    (known.get? id = known'.get? id → (handleMsg known (some command)).cache.get? id =
    (simpleCall call known').2.get? id) ∧ (¬ command.Concerns id → (handleMsg known (some command)).cache.get? id =
    known.get? id) := by
  cases call with
  | insert secret => cases hstart
  | insertVec secrets => cases hstart
  | removeSecret secretId =>
    cases hstart
    show (_ → (known.erase secretId).get? id = (known'.erase secretId).get? id) ∧
      (_ → (known.erase secretId).get? id = _)
    rw [OrdMap.get?_erase, OrdMap.get?_erase]
    constructor
    · intro h
      rw [h]
    · intro h
      rw [if_neg fun heq => h heq.symm]
  | _ =>
    cases hstart
    exact ⟨fun h => h, fun _ => rfl⟩

theorem afterSend_cases (call : Call) :
    call.afterSend = .waiting ∨ ∃ reply, call.afterSend = .returning reply ∧ ∀ reply',
      SameReply call reply reply' := by
  cases call with
  | removeSecret secretId => exact .inr ⟨_, rfl, fun _ => .inl ⟨secretId, rfl⟩⟩
  | _ => exact .inl rfl

variable {passed rest : List Secret}

theorem simpleCall_of_start (hstart : call.start i = .adding passed rest) : passed = [] ∧ rest = call.added ∧
    ∀ known, simpleCall call known = (.done, SimpleSecretsResolver.insertVec known call.added) := by
  cases call with
  | insert secret | insertVec secrets =>
    cases hstart
    exact ⟨rfl, rfl, fun _ => rfl⟩
  | _ => cases hstart

theorem request_ne_terminate (hstart : call.start i = .asking command) : command ≠ .terminate := by
  rintro rfl
  cases call <;> cases hstart

/-! ## The order of the calls -/

/-- What the order holds of a call at a stage. A call is placed when its last command is in the channel. -/
def StageHolds (order : List (Entry ℕ Call Reply)) (i : ℕ) (call : Call) : Stage → Prop
  | .adding _ [] => ∃ e ∈ order, e.id = i ∧ e.res = .done
  | .adding passed (secret :: rest) =>
    call.start i = .adding [] (passed ++ secret :: rest) ∧ i ∉ ids order
  | .asking command => call.start i = .asking command ∧ i ∉ ids order
  | .waiting => True
  | .returning reply => ∃ e ∈ order, e.id = i ∧ SameReply e.op reply e.res
  | .returned => True

variable {order : List (Entry ℕ Call Reply)} {stage : Stage} {e : Entry ℕ Call Reply}

theorem StageHolds.snoc (h : StageHolds order i call stage) (hne : i ≠ e.id) :
    StageHolds (order ++ [e]) i call stage := by
  have hids : i ∉ ids order → i ∉ ids (order ++ [e]) := by
    intro hnot hmem
    rw [ids_append] at hmem
    rcases mem_append.1 hmem with hmem | hmem
    · exact hnot hmem
    · exact hne (by simpa [ids] using hmem)
  cases stage with
  | adding passed rest =>
    cases rest with
    | nil =>
      obtain ⟨e', he', h⟩ := h
      exact ⟨e', mem_append_left _ he', h⟩
    | cons secret rest => exact ⟨h.1, hids h.2⟩
  | asking command => exact ⟨h.1, hids h.2⟩
  | returning reply =>
    obtain ⟨e', he', h⟩ := h
    exact ⟨e', mem_append_left _ he', h⟩
  | waiting => exact trivial
  | returned => exact trivial

/-- The secrets once the channel is handled are those of the order, with the beginnings of the insertions that are
not finished on top: these are apart from each other. -/
structure Overlaid (s : System) (known : SecretMap) : Prop where
  elsewhere : ∀ id, (∀ j passed, s.Unfinished j passed → ∀ secret ∈ passed, secret.id ≠ id) →
    (System.drain s.cache s.queue).get? id = known.get? id
  begun : ∀ j passed, s.Unfinished j passed → ∀ id, lastOf passed id ≠ none →
    (System.drain s.cache s.queue).get? id = lastOf passed id
  apart : ∀ j j' passed passed', j ≠ j' → s.Unfinished j passed → s.Unfinished j' passed' →
    ∀ secret ∈ passed, ∀ secret' ∈ passed', secret.id ≠ secret'.id

/-- The order explains the history, and what the system holds agrees with it. -/
structure Explained (s : System) (order : List (Entry ℕ Call Reply)) : Prop where
  explains : Explains simple SameReply OrdMap.empty s.history order
  running : s.running = true
  endless : ∀ command ∈ s.queue, command ≠ .terminate
  called : ∀ i call, .call i call ∈ s.history ↔ ∃ stage, s.calls i = some (call, stage)
  stages : ∀ i call stage, s.calls i = some (call, stage) → StageHolds order i call stage
  overlaid : Overlaid s (simple.after OrdMap.empty order)
  answered : ∀ i answer, (i, answer) ∈ s.answers ++ System.due s.cache s.queue →
    ∃ e ∈ order, e.id = i ∧ e.res = e.op.ofAnswer answer

/-! ## The steps keep the order -/

namespace System

variable {s : System} {i : ℕ} {call : Call} {stage : Stage}

theorem unfinished_at {j : ℕ} {passed : List Secret} (hne : j ≠ i) : (s.at_ i call stage).Unfinished j passed ↔
    s.Unfinished j passed := by
  simp only [Unfinished, at_, Function.update_of_ne hne]

theorem calls_at_self : (s.at_ i call stage).calls i = some (call, stage) := Function.update_self ..

theorem calls_at_of_ne {j : ℕ} (hne : j ≠ i) : (s.at_ i call stage).calls j = s.calls j :=
    Function.update_of_ne hne ..

end System

variable {s : System}

theorem called_at (h : ∀ i call, .call i call ∈ s.history ↔ ∃ stage, s.calls i = some (call, stage))
    (stage' : Stage) (hcall : s.calls i = some (call, stage)) (j : ℕ) (call' : Call) : .call j call' ∈ s.history ↔
    ∃ stage, (s.at_ i call stage').calls j = some (call', stage) := by
  rw [h]
  by_cases hj : j = i
  · subst hj
    rw [calls_at_self, hcall]
    simp
  · rw [calls_at_of_ne hj]

theorem stages_at {order' : List (Entry ℕ Call Reply)}
    (h : ∀ i call stage, s.calls i = some (call, stage) → StageHolds order i call stage)
    (hother : ∀ j call stage, j ≠ i → StageHolds order j call stage → StageHolds order' j call stage)
    (hself : StageHolds order' i call stage) (j : ℕ) (call' : Call) (stage' : Stage)
    (hcalls : (s.at_ i call stage).calls j = some (call', stage')) : StageHolds order' j call' stage' := by
  by_cases hj : j = i
  · subst hj
    rw [calls_at_self, some.injEq, Prod.mk.injEq] at hcalls
    obtain ⟨rfl, rfl⟩ := hcalls
    exact hself
  · rw [calls_at_of_ne hj] at hcalls
    exact hother j call' stage' hj (h j call' stage' hcalls)

variable {s' : System}

theorem Overlaid.of_unfinished (h : Overlaid s known)
    (hdrain : drain s'.cache s'.queue = drain s.cache s.queue)
    (hunfinished : ∀ j passed, passed ≠ [] → (s'.Unfinished j passed ↔ s.Unfinished j passed)) :
    Overlaid s' known := by
  have hold : ∀ {j passed} {secret : Secret}, s'.Unfinished j passed → secret ∈ passed → s.Unfinished j passed :=
    fun hu hmem => (hunfinished _ _ (ne_nil_of_mem hmem)).1 hu
  refine ⟨fun id hid => ?_, fun j passed hu id hid => ?_,
    fun j j' passed passed' hne hu hu' secret hmem secret' hmem' => ?_⟩
  · rw [hdrain]
    refine h.elsewhere id fun j passed hu secret hmem => ?_
    exact hid j passed ((hunfinished j passed (ne_nil_of_mem hmem)).2 hu) secret hmem
  · rw [hdrain]
    have hne : passed ≠ [] := fun hnil => hid (by rw [hnil]; rfl)
    exact h.begun j passed ((hunfinished j passed hne).1 hu) id hid
  · exact h.apart j j' passed passed' hne (hold hu hmem) (hold hu' hmem') secret hmem secret' hmem'

theorem Explained.invoke (h : Explained s order) (hstep : s.step (.invoke i call) = some s') :
    ∃ order', Explained s' order' := by
  simp only [step] at hstep
  by_cases hnone : (s.calls i).isNone
  · rw [if_pos hnone] at hstep
    cases hstep
    have hcalls : s.calls i = none := isNone_iff_eq_none.1 hnone
    have hfresh : ∀ op, Event.call i op ∉ s.history := by
      intro op hmem
      obtain ⟨stage, hstage⟩ := (h.called i op).1 hmem
      rw [hcalls] at hstage
      cases hstage
    have hnew : i ∉ ids order := by
      intro hmem
      obtain ⟨e, he, rfl⟩ := mem_ids.1 hmem
      exact hfresh e.op (h.explains.called e he)
    have hexplains := h.explains.call call hfresh
    have hself : Event.call i call ∈ s.history ++ [.call i call] := mem_append_right _ mem_cons_self
    have hcalled : ∀ j call', .call j call' ∈ s.history ++ [.call i call] ↔
        ∃ stage, (s.at_ i call (call.start i)).calls j = some (call', stage) := by
      intro j call'
      rw [mem_append, h.called]
      by_cases hj : j = i
      · subst hj
        rw [calls_at_self, hcalls]
        simp [eq_comm]
      · rw [calls_at_of_ne hj]
        simp [hj]
    -- nothing of the call is in the channel yet
    have hoverlaid : Overlaid (s.at_ i call (call.start i)) (simple.after OrdMap.empty order) := by
      refine h.overlaid.of_unfinished rfl fun j passed hne => ?_
      by_cases hj : j = i
      · subst hj
        have hnot : ¬ s.Unfinished j passed := by
          rintro ⟨call', secret, rest, hu⟩
          rw [hcalls] at hu
          cases hu
        refine iff_of_false ?_ hnot
        rintro ⟨call', secret, rest, hu⟩
        rw [calls_at_self, some.injEq, Prod.mk.injEq] at hu
        exact hne (simpleCall_of_start hu.2).1
      · exact unfinished_at hj
    by_cases hempty : call.start i = .adding [] []
    · obtain ⟨-, hadded, hsimple⟩ := simpleCall_of_start hempty
      have hstate : simple.after OrdMap.empty
        (order ++ [⟨i, call, (simple.apply call (simple.after OrdMap.empty order)).1⟩]) =
          simple.after OrdMap.empty order := by
        rw [after_append]
        show (simpleCall call _).2 = _
        rw [hsimple, ← hadded]
        rfl
      refine ⟨_, hexplains.commit hself hnew, h.running, h.endless, hcalled, ?_, ?_, ?_⟩
      · refine stages_at h.stages (fun j call' stage hj hholds => hholds.snoc hj) ?_
        rw [hempty]
        refine ⟨_, mem_append_right _ (mem_singleton_self _), rfl, ?_⟩
        show (simpleCall call _).1 = _
        rw [hsimple]
      · rw [hstate]
        exact hoverlaid.of_unfinished rfl fun _ _ _ => Iff.rfl
      · intro j answer hmem
        obtain ⟨e, he, hrest⟩ := h.answered j answer hmem
        exact ⟨e, mem_append_left _ he, hrest⟩
    · refine ⟨order, hexplains, h.running, h.endless, hcalled, ?_,
        hoverlaid.of_unfinished rfl fun _ _ _ => Iff.rfl, h.answered⟩
      refine stages_at h.stages (fun j call' stage _ hholds => hholds) ?_
      cases hstart : call.start i with
      | adding passed rest =>
        obtain ⟨rfl, -, -⟩ := simpleCall_of_start hstart
        cases rest with
        | nil => exact absurd hstart hempty
        | cons secret rest => exact ⟨hstart, hnew⟩
      | asking command => exact ⟨hstart, hnew⟩
      | waiting | returning reply | returned => cases call <;> cases hstart
  · rw [if_neg hnone] at hstep
    cases hstep

theorem Explained.handle (h : Explained s order) (hstep : s.step .handle = some s') : Explained s' order := by
  obtain ⟨cache, queue, running, answers, calls, history⟩ := s
  obtain rfl : running = true := h.running
  cases queue with
  | nil => cases hstep
  | cons command queue =>
    cases hstep
    have hexit : (handleMsg cache (some command)).exitFlag = false := by
      have hne := h.endless command mem_cons_self
      cases command <;> first | rfl | exact absurd rfl hne
    refine ⟨h.explains, ?_, fun c hc => h.endless c (mem_cons_of_mem _ hc), h.called, h.stages, ?_, ?_⟩
    · show (!(handleMsg cache (some command)).exitFlag) = true
      rw [hexit]
      rfl
    · exact h.overlaid.of_unfinished rfl fun j passed _ => Iff.rfl
    · intro i answer hmem
      rw [append_assoc] at hmem
      exact h.answered i answer hmem

theorem Explained.return_ (h : Explained s order) (hcalls : s.calls i = some (call, stage))
    (hstage : ∀ passed secret rest, stage ≠ .adding passed (secret :: rest)) (he : e ∈ order) (hid : e.id = i)
    {reply : Reply} (hreply : SameReply e.op reply e.res) : Explained (s.return_ i call reply) order := by
  refine ⟨hid ▸ h.explains.ret he hreply, h.running, h.endless, fun j call' => ?_, ?_, ?_, h.answered⟩
  · have := called_at h.called .returned hcalls j call'
    show _ ∈ s.history ++ _ ↔ _
    rw [mem_append, this]
    simp [System.return_]
  · exact stages_at h.stages (fun j call' stage _ hholds => hholds) trivial
  · refine h.overlaid.of_unfinished rfl fun j passed _ => ?_
    by_cases hj : j = i
    · subst hj
      refine iff_of_false ?_ ?_
      · rintro ⟨call', secret, rest, hu⟩
        have hself : (s.return_ j call reply).calls j = some (call, .returned) := System.calls_at_self
        rw [hself] at hu
        cases hu
      · rintro ⟨call', secret, rest, hu⟩
        rw [hcalls, some.injEq, Prod.mk.injEq] at hu
        exact hstage passed secret rest hu.2
    · exact System.unfinished_at hj

theorem Explained.ret (h : Explained s order) (hstep : s.step (.ret i) = some s') : Explained s' order := by
  simp only [step, returnNext] at hstep
  cases hcalls : s.calls i with
  | none =>
    rw [hcalls] at hstep
    cases hstep
  | some found =>
    obtain ⟨call, stage⟩ := found
    rw [hcalls] at hstep
    have hholds := h.stages i call stage hcalls
    cases stage with
    | adding passed rest =>
      cases rest with
      | nil =>
        cases hstep
        obtain ⟨e, he, hid, hres⟩ := hholds
        exact h.return_ hcalls (by simp) he hid (.inr hres.symm)
      | cons secret rest => cases hstep
    | asking command => cases hstep
    | waiting =>
      cases hlookup : s.answers.lookup i with
      | none =>
        simp only [hlookup, h.running, if_pos] at hstep
        cases hstep
      | some answer =>
        simp only [hlookup, some.injEq] at hstep
        obtain rfl := hstep
        have hmem : (i, answer) ∈ s.answers := by
          obtain ⟨before, after, heq, -⟩ := lookup_eq_some_iff.1 hlookup
          simp [heq]
        obtain ⟨e, he, hid, hres⟩ := h.answered i answer (mem_append_left _ hmem)
        -- the call in the order is the one that waits
        obtain ⟨stage, hstage⟩ := (h.called i e.op).1 (hid ▸ h.explains.called e he)
        rw [hcalls, some.injEq, Prod.mk.injEq] at hstage
        exact h.return_ hcalls (by simp) he hid (.inr (by rw [hres, ← hstage.1]))
    | returning reply =>
      cases hstep
      obtain ⟨e, he, hid, hsame⟩ := hholds
      exact h.return_ hcalls (by simp) he hid hsame
    | returned => cases hstep

theorem trySend_eq_ok (hrunning : s.running = true) (hroom : s.queue.length < channelSize)
    (command : SecretTaskCommand) : s.trySend command = .ok (s.queue ++ [command]) := by
  simp [trySend, hrunning, hroom]

theorem drain_sent (s : System) (i : ℕ) (call : Call) (stage : Stage) (command : SecretTaskCommand) :
    drain (s.sent i call stage command).cache (s.sent i call stage command).queue =
      (handleMsg (drain s.cache s.queue) (some command)).cache := drain_snoc ..

theorem drain_addSecret (s : System) (i : ℕ) (call : Call) (stage : Stage) (secret : Secret) (id : String) :
    (drain (s.sent i call stage (.addSecret secret)).cache
      (s.sent i call stage (.addSecret secret)).queue).get? id =
      if id = secret.id then some secret else (drain s.cache s.queue).get? id := by
  rw [drain_sent]
  exact OrdMap.get?_insert ..

/-- One secret more is put in; after the last one the whole insertion is below what the others have begun. -/
theorem Overlaid.add (h : Overlaid s known) {secret : Secret}
    (hcalls : s.calls i = some (call, .adding passed (secret :: rest)))
    (hundisturbed : ∀ j passed, j ≠ i → s.Unfinished j passed → ∀ secret' ∈ passed, secret.id ≠ secret'.id) :
    Overlaid (s.sent i call (.adding (passed ++ [secret]) rest) (.addSecret secret))
      (if rest = [] then SimpleSecretsResolver.insertVec known (passed ++ [secret]) else known) := by
  have hself : s.Unfinished i passed := ⟨call, secret, rest, hcalls⟩
  have honly {passed'} (hu : s.Unfinished i passed') : passed' = passed := by
    obtain ⟨call', next, rest', hu⟩ := hu
    rw [hcalls, some.injEq, Prod.mk.injEq, Stage.adding.injEq] at hu
    exact hu.2.1.symm
  have hold {j passed'} (hne : j ≠ i) :
      (s.sent i call (.adding (passed ++ [secret]) rest) (.addSecret secret)).Unfinished j passed' ↔
        s.Unfinished j passed' := unfinished_at hne
  have hnew {passed'} :
      (s.sent i call (.adding (passed ++ [secret]) rest) (.addSecret secret)).Unfinished i passed' ↔
        passed' = passed ++ [secret] ∧ rest ≠ [] := by
    have hat : (s.at_ i call (.adding (passed ++ [secret]) rest)).calls i = _ := calls_at_self
    constructor
    · rintro ⟨call', next, rest', hu : (s.at_ i call (.adding (passed ++ [secret]) rest)).calls i = _⟩
      rw [hat, some.injEq, Prod.mk.injEq, Stage.adding.injEq] at hu
      exact ⟨hu.2.1.symm, hu.2.2 ▸ cons_ne_nil next rest'⟩
    · rintro ⟨rfl, hrest⟩
      obtain ⟨next, rest, rfl⟩ := exists_cons_of_ne_nil hrest
      exact ⟨call, next, rest, hat⟩
  refine ⟨fun id hid => ?_, fun j passed' hu id hid => ?_, fun j j' passed₁ passed₂ hne hu hu' a ha b hb => ?_⟩
  · have helse (hmine : ∀ secret' ∈ passed, secret'.id ≠ id) :
        (drain s.cache s.queue).get? id = known.get? id := by
      refine h.elsewhere id fun j passed' hu secret' hmem => ?_
      by_cases hj : j = i
      · subst hj
        exact hmine secret' (honly hu ▸ hmem)
      · exact hid j passed' ((hold hj).2 hu) secret' hmem
    rw [drain_addSecret]
    split_ifs with hsecret hrest hrest
    · rw [get?_insertVec, lastOf_snoc, if_pos hsecret]
      rfl
    · exact absurd hsecret.symm (hid i _ (hnew.2 ⟨rfl, hrest⟩) secret (by simp))
    · rw [get?_insertVec, lastOf_snoc, if_neg hsecret]
      cases hlast : lastOf passed id with
      | some found =>
        -- the call itself put it in
        rw [h.begun i passed hself id (by simp [hlast]), hlast]
        rfl
      | none => exact helse (lastOf_eq_none_iff.1 hlast)
    · exact helse fun secret' hmem => hid i _ (hnew.2 ⟨rfl, hrest⟩) secret' (mem_append_left _ hmem)
  · rw [drain_addSecret]
    by_cases hj : j = i
    · subst hj
      obtain rfl := (hnew.1 hu).1
      rw [lastOf_snoc] at hid ⊢
      by_cases hsecret : id = secret.id
      · rw [if_pos hsecret, if_pos hsecret]
      · rw [if_neg hsecret] at hid ⊢
        rw [if_neg hsecret]
        exact h.begun j passed hself id hid
    · have hu := (hold hj).1 hu
      obtain ⟨secret', hmem, hid'⟩ : ∃ secret' ∈ passed', secret'.id = id := by
        by_contra hnot
        exact hid (lastOf_eq_none_iff.2 fun secret' hmem heq => hnot ⟨secret', hmem, heq⟩)
      rw [if_neg fun heq => hundisturbed j passed' hj hu secret' hmem (by rw [hid', heq])]
      exact h.begun j passed' hu id hid
  · by_cases hj : j = i
    · have hj' : j' ≠ i := fun heq => hne (hj.trans heq.symm)
      subst hj
      obtain rfl := (hnew.1 hu).1
      rcases mem_append.1 ha with ha | ha
      · exact h.apart j j' passed passed₂ hne hself ((hold hj').1 hu') a ha b hb
      · rw [mem_singleton.1 ha]
        exact hundisturbed j' passed₂ hj' ((hold hj').1 hu') b hb
    · by_cases hj' : j' = i
      · subst hj'
        obtain rfl := (hnew.1 hu').1
        rcases mem_append.1 hb with hb | hb
        · exact h.apart j j' passed₁ passed hne ((hold hj).1 hu) hself a ha b hb
        · rw [mem_singleton.1 hb]
          exact fun heq => hundisturbed j passed₁ hj ((hold hj).1 hu) a ha heq.symm
      · exact h.apart j j' passed₁ passed₂ hne ((hold hj).1 hu) ((hold hj').1 hu') a ha b hb

theorem Overlaid.ask (h : Overlaid s known) (hcalls : s.calls i = some (call, .asking command))
    (hstart : call.start i = .asking command)
    (hundisturbed : ∀ j passed, j ≠ i → s.Unfinished j passed → ∀ secret ∈ passed, ¬ command.Concerns secret.id) :
    Overlaid (s.sent i call call.afterSend command) (simpleCall call known).2 := by
  have hold : ∀ {j passed}, (s.sent i call call.afterSend command).Unfinished j passed ↔ s.Unfinished j passed := by
    intro j passed
    by_cases hj : j = i
    · subst hj
      refine iff_of_false ?_ ?_
      · rintro ⟨call', secret, rest, hu⟩
        have hat : (s.at_ j call call.afterSend).calls j = some (call', .adding passed (secret :: rest)) := hu
        rw [calls_at_self, some.injEq, Prod.mk.injEq] at hat
        rcases afterSend_cases call with hsend | ⟨reply, hsend, -⟩
        · rw [hsend] at hat
          cases hat.2
        · rw [hsend] at hat
          cases hat.2
      · rintro ⟨call', secret, rest, hu⟩
        rw [hcalls] at hu
        cases hu
    · exact unfinished_at hj
  have hnot : ∀ {j passed}, s.Unfinished j passed → j ≠ i := by
    rintro j passed ⟨call', secret, rest, hu⟩ rfl
    rw [hcalls] at hu
    cases hu
  refine ⟨fun id hid => ?_, fun j passed hu id hid => ?_, fun j j' passed passed' hne hu hu' => ?_⟩
  · rw [drain_sent]
    refine (get?_of_request hstart _ known id).1 (h.elsewhere id fun j passed hu => ?_)
    exact hid j passed (hold.2 hu)
  · have hu := hold.1 hu
    obtain ⟨secret, hmem, rfl⟩ : ∃ secret ∈ passed, secret.id = id := by
      by_contra hnone
      exact hid (lastOf_eq_none_iff.2 fun secret hmem heq => hnone ⟨secret, hmem, heq⟩)
    rw [drain_sent, (get?_of_request hstart _ known secret.id).2 (hundisturbed j passed (hnot hu) hu secret hmem)]
    exact h.begun j passed hu secret.id hid
  · exact h.apart j j' passed passed' hne (hold.1 hu) (hold.1 hu')

theorem mem_answers_sent {j : ℕ} {answer : Answer}
    (h : (j, answer) ∈ (s.sent i call stage command).answers ++ due (s.sent i call stage command).cache
    (s.sent i call stage command).queue) : (j, answer) ∈ s.answers ++ due s.cache s.queue ∨
    (handleMsg (drain s.cache s.queue) (some command)).sent = some (j, answer) := by
  have h : (j, answer) ∈ s.answers ++ due s.cache (s.queue ++ [command]) := h
  rw [due_snoc, ← append_assoc] at h
  rcases mem_append.1 h with h | h
  · exact .inl h
  · exact .inr (by simpa using h)

theorem Explained.endless_snoc (h : Explained s order) (hne : command ≠ .terminate) :
    ∀ c ∈ s.queue ++ [command], c ≠ .terminate := by
  intro c hc
  rcases mem_append.1 hc with hc | hc
  · exact h.endless c hc
  · exact mem_singleton.1 hc ▸ hne

/-- One more secret of an insertion is in the channel; with the last of them the insertion is placed. -/
theorem Explained.addNext (h : Explained s order) {secret : Secret}
    (hcalls : s.calls i = some (call, .adding passed (secret :: rest)))
    (hundisturbed : ∀ j passed, j ≠ i → s.Unfinished j passed → ∀ secret' ∈ passed, secret.id ≠ secret'.id) :
    ∃ order', Explained (s.sent i call (.adding (passed ++ [secret]) rest) (.addSecret secret)) order' := by
  obtain ⟨hstart, hnew⟩ := h.stages i call _ hcalls
  obtain ⟨-, hadded, hsimple⟩ := simpleCall_of_start hstart
  have hqueue := h.endless_snoc (show SecretTaskCommand.addSecret secret ≠ .terminate by simp)
  have hcalled := called_at h.called (.adding (passed ++ [secret]) rest) hcalls
  have hanswers : ∀ j answer, (j, answer) ∈ (s.sent i call (.adding (passed ++ [secret]) rest)
      (.addSecret secret)).answers ++ due s.cache (s.queue ++ [.addSecret secret]) →
      ∃ e ∈ order, e.id = j ∧ e.res = e.op.ofAnswer answer := by
    intro j answer hmem
    rcases mem_answers_sent hmem with hmem | hsent
    · exact h.answered j answer hmem
    · cases hsent
  cases rest with
  | cons next rest =>
    refine ⟨order, h.explains, h.running, hqueue, hcalled, ?_, ?_, hanswers⟩
    · refine stages_at h.stages (fun j call' stage _ hholds => hholds) ⟨?_, hnew⟩
      rw [append_assoc]
      exact hstart
    · exact h.overlaid.add hcalls hundisturbed
  | nil =>
    refine ⟨_, h.explains.commit ((h.called i call).2 ⟨_, hcalls⟩) hnew, h.running, hqueue, hcalled, ?_, ?_, ?_⟩
    · refine stages_at h.stages (fun j call' stage hj hholds => hholds.snoc hj) ?_
      refine ⟨_, mem_append_right _ (mem_singleton_self _), rfl, ?_⟩
      show (simpleCall call _).1 = _
      rw [hsimple]
    · rw [after_append]
      show Overlaid _ (simpleCall call _).2
      rw [hsimple, ← hadded]
      exact h.overlaid.add hcalls hundisturbed
    · intro j answer hmem
      obtain ⟨e, he, hrest⟩ := hanswers j answer hmem
      exact ⟨e, mem_append_left _ he, hrest⟩

/-- A request is placed when its command is in the channel. -/
theorem Explained.ask (h : Explained s order) (hcalls : s.calls i = some (call, .asking command))
    (hundisturbed : ∀ j passed, j ≠ i → s.Unfinished j passed → ∀ secret ∈ passed, ¬ command.Concerns secret.id) :
    ∃ order', Explained (s.sent i call call.afterSend command) order' := by
  obtain ⟨hstart, hnew⟩ := h.stages i call _ hcalls
  refine ⟨_, h.explains.commit ((h.called i call).2 ⟨_, hcalls⟩) hnew, h.running,
    h.endless_snoc (request_ne_terminate hstart), called_at h.called call.afterSend hcalls, ?_, ?_, ?_⟩
  · refine stages_at h.stages (fun j call' stage hj hholds => hholds.snoc hj) ?_
    rcases afterSend_cases call with hsend | ⟨reply, hsend, hsame⟩
    · rw [hsend]
      exact trivial
    · rw [hsend]
      exact ⟨_, mem_append_right _ (mem_singleton_self _), rfl, hsame _⟩
  · rw [after_append]
    exact h.overlaid.ask hcalls hstart hundisturbed
  · intro j answer hmem
    rcases mem_answers_sent hmem with hmem | hsent
    · obtain ⟨e, he, hrest⟩ := h.answered j answer hmem
      exact ⟨e, mem_append_left _ he, hrest⟩
    · have hagree : ∀ id, command.Concerns id →
          (drain s.cache s.queue).get? id = (simple.after OrdMap.empty order).get? id := by
        intro id hid
        refine h.overlaid.elsewhere id fun j passed hu secret hmem heq => ?_
        have hj : j ≠ i := by
          rintro rfl
          obtain ⟨call', next, rest, hu⟩ := hu
          rw [hcalls] at hu
          cases hu
        exact hundisturbed j passed hj hu secret hmem (heq ▸ hid)
      obtain ⟨rfl, hanswer⟩ := answer_of_request hstart hagree hsent
      exact ⟨_, mem_append_right _ (mem_singleton_self _), rfl, hanswer⟩

theorem Explained.trySend (h : Explained s order) (hclear : s.Clear (.trySend i))
    (hstep : s.step (.trySend i) = some s') : ∃ order', Explained s' order' := by
  obtain ⟨hroom, hundisturbed⟩ := hclear
  simp only [step, sendNext] at hstep
  cases hcalls : s.calls i with
  | none =>
    rw [hcalls] at hstep
    cases hstep
  | some found =>
    obtain ⟨call, stage⟩ := found
    rw [hcalls] at hstep
    cases stage with
    | adding passed rest =>
      cases rest with
      | nil => cases hstep
      | cons secret rest =>
        dsimp only at hstep
        rw [trySend_eq_ok (s := s.at_ i call (.adding (passed ++ [secret]) rest)) h.running hroom] at hstep
        cases hstep
        exact h.addNext hcalls (hundisturbed (.addSecret secret) (by simp [nextCommand, hcalls]))
    | asking command =>
      dsimp only at hstep
      rw [trySend_eq_ok h.running hroom] at hstep
      cases hstep
      exact h.ask hcalls (hundisturbed command (by simp [nextCommand, hcalls]))
    | waiting => cases hstep
    | returning reply => cases hstep
    | returned => cases hstep

/-- Clear steps keep an order that explains the history. -/
theorem explained_of_clear (h : Reach Clear s) : ∃ order, Explained s order := by
  induction h with
  | new =>
    refine ⟨[], Explains.nil .., rfl, by simp [new], by simp [new], by simp [new],
      ⟨?_, ?_, ?_⟩, ?_⟩
    · intro id _
      rfl
    · rintro j passed ⟨call, secret, rest, hu⟩
      cases hu
    · rintro j j' passed passed' - ⟨call, secret, rest, hu⟩
      cases hu
    · simp [new, due]
  | step hreach hclear hstep ih =>
    rename_i s s' action
    obtain ⟨order, horder⟩ := ih
    cases action with
    | invoke i call => exact horder.invoke hstep
    | trySend i => exact horder.trySend hclear hstep
    | handle => exact ⟨order, horder.handle hstep⟩
    | ret i => exact ⟨order, horder.ret hstep⟩

/-- A run in which every command finds room in the channel, and none concerns what an unfinished insertion has
put in: its calls answer as the simple resolver does in an order that keeps that of the calls, and a secret whose
insertion returned is found until it is removed. -/
theorem sequential_of_clear {s : System} (h : Reach Clear s) :
    Sequential s.history ∧
    ∀ i j call secret reply, .call i call ∈ s.history → secret ∈ call.added →
      [.ret i .done, .call j (.getSecret secret.id)].Sublist s.history → .ret j reply ∈ s.history →
      (∀ k, .call k (.removeSecret secret.id) ∈ s.history → Precedes s.history k i ∨ Precedes s.history j k) →
      ∃ found, reply = .secret (some found) := by
  obtain ⟨order, horder⟩ := explained_of_clear h
  refine ⟨⟨order, horder.explains⟩, fun i j call secret reply hcall hadded hlater hread hremoved => ?_⟩
  refine Sequential.found ⟨order, horder.explains⟩ hadded hcall hlater hread (fun k op op' hop hop' => ?_) hremoved
  obtain ⟨stage, hstage⟩ := (horder.called k op).1 hop
  obtain ⟨stage', hstage'⟩ := (horder.called k op').1 hop'
  rw [hstage, some.injEq, Prod.mk.injEq] at hstage'
  exact hstage'.1

/-! ## A run that meets the condition -/

def numbered (n : ℕ) : Secret :=
  ⟨toString n, .multikey, .privateKeyMultibase [], [], [], .ed25519⟩

variable {allowed : System → System.Action → Prop}

theorem System.Reach.go (h : Reach allowed s) (action : Action) (hallowed : allowed s action)
    (hstep : s.step action = some s') : Reach allowed s' := h.step hallowed hstep

/-- A step is clear when the channel has room and no other call is past a secret with others to come. -/
theorem System.clear_of_alone (hroom : s.queue.length < channelSize)
    (halone : ∀ j passed, j ≠ i → ¬ s.Unfinished j passed) : s.Clear (.trySend i) :=
  ⟨hroom, fun _ _ j passed hne hu => absurd hu (halone j passed hne)⟩

theorem quietRun_clear : ∃ s, Reach Clear s ∧ s.history =
    [.call 0 (.insert (numbered 0)), .ret 0 .done, .call 1 (.getSecret "0"),
      .ret 1 (.secret (some (numbered 0)))] := by
  have halone : ∀ (s : System) (i : ℕ) (stage : Stage) (call : Call),
    (∀ j, j ≠ i → s.calls j = none ∨ s.calls j = some (call, stage)) →
      (∀ passed secret rest, stage ≠ .adding passed (secret :: rest)) → ∀ j passed, j ≠ i →
        ¬ s.Unfinished j passed := by
    rintro s i stage call hother hstage j passed hne ⟨call', secret, rest, hu⟩
    rcases hother j hne with h | h
    · rw [h] at hu
      cases hu
    · rw [h, some.injEq, Prod.mk.injEq] at hu
      exact hstage passed secret rest hu.2
  have h₀ : Reach Clear new := .new
  have h₁ := h₀.go (.invoke 0 (.insert (numbered 0))) trivial rfl
  have h₂ := h₁.go (.trySend 0) (clear_of_alone (by decide) (halone _ 0 .returned .len
    (fun j hj => .inl (by simp [at_, new, hj])) (by simp))) rfl
  have h₃ := h₂.go (.ret 0) trivial rfl
  have h₄ := h₃.go (.invoke 1 (.getSecret "0")) trivial rfl
  have h₅ := h₄.go (.trySend 1) (clear_of_alone (by decide) (halone _ 1 .returned (.insert (numbered 0))
    (fun j hj => by
      by_cases h0 : j = 0
      · subst h0
        exact .inr rfl
      · exact .inl (by simp [at_, return_, new, hj, h0])) (by simp))) rfl
  have h₆ := h₅.go .handle trivial rfl
  have h₇ := h₆.go .handle trivial rfl
  have h₈ := h₇.go (.ret 1) trivial rfl
  exact ⟨_, h₈, rfl⟩

/-- A secret is put in and asked for, with room for both commands. -/
theorem quiet_found : ∃ s, Reach Clear s ∧ Sequential s.history ∧
    Event.ret 1 (Reply.secret (some (numbered 0))) ∈ s.history := by
  obtain ⟨s, hreach, hhistory⟩ := quietRun_clear
  refine ⟨s, hreach, (sequential_of_clear hreach).1, ?_⟩
  rw [hhistory]
  simp

/-! ## A burst -/

def System.run (s : System) (actions : List System.Action) : Option System := actions.foldlM System.step s

/-- A run of allowed actions. -/
theorem System.Reach.run (hall : ∀ s action, allowed s action) (h : Reach allowed s)
    {actions : List Action} (hrun : s.run actions = some s') : Reach allowed s' := by
  induction actions generalizing s with
  | nil =>
    cases hrun
    exact h
  | cons action actions ih =>
    obtain ⟨s₁, hstep, hrest⟩ := bind_eq_some_iff.1 hrun
    exact ih (h.step (hall s action) hstep) hrest

/-- More secrets than the channel takes. -/
def burst : List Secret := (List.range (channelSize + 1)).map numbered

/-- All of them are put in before the task runs, and the last one is asked for when it is done. -/
def burstRun : List System.Action :=
  .invoke 0 (.insertVec burst) :: List.replicate (channelSize + 1) (.trySend 0) ++ [.ret 0] ++
    List.replicate channelSize .handle ++ [.invoke 1 (.getSecret "32"), .trySend 1, .handle, .ret 1]

def burstHistory : List (Event ℕ Call Reply) :=
  [.call 0 (.insertVec burst), .ret 0 .done, .call 1 (.getSecret "32"), .ret 1 (.secret none)]

theorem burstRun_history : (new.run burstRun).map history = some burstHistory := by
  decide +kernel

/-- A burst past the size of the channel loses a secret: its insertion returned, nothing removed it, and it is not
found. -/
theorem burst_lost : ∃ s, Reachable s ∧ s.history = burstHistory ∧ ¬ Sequential s.history := by
  obtain ⟨s, hrun, hhistory⟩ := map_eq_some_iff.1 burstRun_history
  refine ⟨s, Reach.new.run (fun _ _ => trivial) hrun, hhistory, fun hsequential => ?_⟩
  rw [hhistory] at hsequential
  have hcall : .call 0 (.insertVec burst) ∈ burstHistory := mem_cons_self
  have hadded : numbered 32 ∈ (Call.insertVec burst).added :=
    mem_map.2 ⟨32, mem_range.2 (by decide), rfl⟩
  have hid : (numbered 32).id = "32" := rfl
  have hread : Event.ret 1 (.secret none) ∈ burstHistory := by simp [burstHistory]
  have hlater : [Event.ret 0 .done, .call 1 (.getSecret (numbered 32).id)].Sublist burstHistory := by
    rw [hid]
    simp [burstHistory]
  obtain ⟨found, hfound⟩ := hsequential.found hadded hcall hlater hread
    (by
      intro k op op' hop hop'
      simp only [burstHistory, mem_cons, Event.call.injEq, reduceCtorEq, not_mem_nil, or_false,
        false_or] at hop hop'
      rcases hop with ⟨rfl, rfl⟩ | ⟨rfl, rfl⟩ <;> rcases hop' with ⟨h, rfl⟩ | ⟨h, rfl⟩ <;> first | rfl | cases h)
    (by simp [burstHistory])
  cases hfound

end AffinidiTdk.Secrets
