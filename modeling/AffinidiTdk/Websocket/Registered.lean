/-
Whether a live connection stays registered. A connection that ends for its own reason sends
`Deregister`, which names its DID only: taken from the queue behind the registration of a newer
connection, it removes the newer one.
-/
import AffinidiTdk.Websocket.Socket

namespace AffinidiTdk.Websocket

open Function List Option StreamingUpdateState

/-! ## Live connections -/

/-- The connection has asked to be registered and has not left its loop. -/
def SocketPc.isOpen : SocketPc → Bool
  | .registered | .flushing | .looping => true
  | _ => false

/-- Its registration was processed, it was not told to close, and it has not ended. -/
def Socket.Live (s : Socket) : Prop := s.processed = true ∧ s.closed = false ∧ s.pc.isOpen = true

/-- Every live connection is its DID's client. -/
def LiveRegistered (w : World) : Prop :=
  ∀ (i : ℕ) (s : Socket), w.sockets[i]? = some s → s.Live → ∃ entry, w.shared.task.clients s.didHash =
    some entry ∧ entry.tx = i

/-- A `Deregister` is not taken while its DID's client is a live connection: the departing one's
comes before a newer one's registration, or after the newer one has ended or was closed. -/
def DeregistersDeparted (w : World) (t : Turn) : Prop :=
  t = .command → ∀ didHash queue, w.shared.queue = ⟨didHash, .deregister⟩ :: queue →
    ∀ entry, w.shared.task.clients didHash = some entry → ∀ s, w.sockets[entry.tx]? = some s → ¬s.Live

/-! ## Who is registered -/

/-- The invocation is past the point where it asks to be registered, or on its way out. -/
def SocketPc.asked : SocketPc → Bool
  | .start | .counted _ | .refused | .reserved _ | .admitted => false
  | _ => true

/-- Connections are registered under their own DID, once, and only after they asked for it. -/
structure Enrolled (w : World) : Prop where
  queued : ∀ update ∈ w.shared.queue, ∀ i, update.state.registers i = true →
    ∃ s, w.sockets[i]? = some s ∧ s.didHash = update.didHash ∧ s.processed = false ∧ s.pc.asked = true
  once : w.shared.queue.Pairwise fun a b => ∀ i, a.state.registers i = true → b.state.registers i = false
  asked : ∀ (i : ℕ) (s : Socket), w.sockets[i]? = some s → s.processed = true → s.pc.asked = true
  client : ∀ didHash entry, w.shared.task.clients didHash = some entry →
    ∃ s, w.sockets[entry.tx]? = some s ∧ s.didHash = didHash

/-- What a step of an invocation can put on the queue, and where it can leave the invocation. -/
structure MovesQueue (channel : ℕ) (s : Socket) (sh sh' : Shared) (pc pc' : SocketPc) : Prop where
  task : sh'.task = sh.task
  asked : pc.asked = true → pc'.asked = true
  opened : pc'.isOpen = true → pc.isOpen = true ∨ pc = .admitted
  queue : sh'.queue = sh.queue ∨
    (pc = .admitted ∧ pc'.asked = true ∧ sh'.queue = sh.queue ++ [⟨s.didHash, .register channel s.did⟩]) ∨
    sh'.queue = sh.queue ++ [⟨s.didHash, .deregister⟩]

variable {limits : Limits}

theorem handleSocket_movesQueue {sh sh' : Shared} {channel : ℕ} {s : Socket} {pc pc' : SocketPc}
    {event : SocketEvent} (h : handleSocket limits sh channel s pc event = some (sh', pc')) :
    MovesQueue channel s sh sh' pc pc' := by
  unfold handleSocket at h
  split at h
  · cases h
    exact ⟨rfl, by simp [SocketPc.asked], by simp [SocketPc.isOpen], .inl rfl⟩
  · split at h <;> obtain ⟨rfl, rfl⟩ := Prod.mk.inj (some.inj h) <;>
      exact ⟨rfl, by simp [SocketPc.asked], by simp [SocketPc.isOpen], .inl rfl⟩
  · cases h
    exact ⟨rfl, by simp [SocketPc.asked], by simp [SocketPc.isOpen], .inl rfl⟩
  · split at h <;> obtain ⟨rfl, rfl⟩ := Prod.mk.inj (some.inj h) <;>
      exact ⟨rfl, by simp [SocketPc.asked], by simp [SocketPc.isOpen], .inl rfl⟩
  · -- registering
    split at h
    · split at h
      · obtain ⟨sh₁, henqueue, heq⟩ := map_eq_some_iff.1 h
        cases heq
        obtain ⟨-, rfl⟩ := Shared.enqueue_eq_some henqueue
        exact ⟨rfl, by simp [SocketPc.asked], fun _ => .inr rfl, .inr (.inl ⟨rfl, rfl, rfl⟩)⟩
      · cases h
        exact ⟨rfl, by simp [SocketPc.asked], by simp [SocketPc.isOpen], .inl rfl⟩
    · cases h
      exact ⟨rfl, by simp [SocketPc.asked], fun _ => .inr rfl, .inl rfl⟩
  · -- the first look at the clock
    split at h
    · cases h
      exact ⟨rfl, fun _ => rfl, fun _ => .inl rfl, .inl rfl⟩
    · cases h
      cases s.tspMode <;> exact ⟨rfl, fun _ => rfl, fun _ => .inl rfl, .inl rfl⟩
  · rename_i gone
    cases h
    cases gone <;> exact ⟨rfl, fun _ => rfl, fun _ => .inl rfl, .inl rfl⟩
  · cases h
    exact ⟨rfl, fun _ => rfl, fun _ => .inl rfl, .inl rfl⟩
  · -- a close from the streaming task
    split at h
    · cases h
      exact ⟨rfl, fun _ => rfl, fun _ => .inl rfl, .inl rfl⟩
    · cases h
  · -- deregistering
    split at h
    · obtain ⟨sh₁, henqueue, heq⟩ := map_eq_some_iff.1 h
      cases heq
      obtain ⟨-, rfl⟩ := Shared.enqueue_eq_some henqueue
      exact ⟨rfl, fun _ => rfl, by simp [SocketPc.isOpen], .inr (.inr rfl)⟩
    · cases h
      exact ⟨rfl, fun _ => rfl, by simp [SocketPc.isOpen], .inl rfl⟩
  · cases h
    exact ⟨rfl, fun _ => rfl, by simp [SocketPc.isOpen], .inl rfl⟩
  · cases h
    exact ⟨rfl, fun _ => rfl, by simp [SocketPc.isOpen], .inl rfl⟩
  · cases h
    refine ⟨?_, fun _ => rfl, by simp [SocketPc.isOpen], .inl ?_⟩ <;> unfold Shared.removeIdle <;> split <;> rfl
  · cases h

variable {task : StreamingTask} {didHash : String} {entry : ClientEntry}

theorem client_of_handleUpdate {update : StreamingUpdate}
    (h : (handleUpdate task update).1.clients didHash = some entry) :
    (∃ old, task.clients didHash = some old ∧ old.tx = entry.tx) ∨
    (update.state.registers entry.tx = true ∧ didHash = update.didHash) := by
  obtain ⟨target, state⟩ := update
  have hactive : ∀ active, (setActive task target active).clients didHash = some entry →
      ∃ old, task.clients didHash = some old ∧ old.tx = entry.tx := by
    intro active hentry
    by_cases hdid : didHash = target
    · subst hdid
      simp only [setActive, update_self, map_eq_some_iff] at hentry
      obtain ⟨old, hold, rfl⟩ := hentry
      exact ⟨old, hold, rfl⟩
    · simp only [setActive, update_of_ne hdid] at hentry
      exact ⟨entry, hentry, rfl⟩
  cases state with
  | register channel did =>
    rcases handleRegistration_cases task target did channel with hrefused | ⟨hclients, -⟩
    · simp only [handleUpdate, hrefused] at h
      exact .inl ⟨entry, h, rfl⟩
    · simp only [handleUpdate, hclients] at h
      by_cases hdid : didHash = target
      · subst hdid
        rw [update_self] at h
        cases h
        exact .inr ⟨by simp [registers], rfl⟩
      · rw [update_of_ne hdid] at h
        exact .inl ⟨entry, h, rfl⟩
  | start => exact .inl (hactive true h)
  | stop => exact .inl (hactive false h)
  | deregister =>
    by_cases hdid : didHash = target
    · subst hdid
      simp [handleUpdate] at h
    · simp only [handleUpdate, update_of_ne hdid] at h
      exact .inl ⟨entry, h, rfl⟩

variable {sockets : List Socket}

theorem socket_of_command {effects : List StreamingEffect} {state : StreamingUpdateState}
    {i : ℕ} {s' : Socket} (h : (effects.foldl applyEffect (markProcessed sockets state))[i]? = some s') :
    ∃ s, sockets[i]? = some s ∧ s' = { s with
      processed := s.processed || state.registers i
      closed := s.closed || decide (.close i ∈ effects) } := by
  rw [getElem?_effects, getElem?_markProcessed, Option.map_map] at h
  obtain ⟨s, hs, heq⟩ := map_eq_some_iff.1 h
  exact ⟨s, hs, heq.symm⟩

variable {i : ℕ}

theorem command_of_socket {s : Socket} (h : sockets[i]? = some s)
    (effects : List StreamingEffect) (state : StreamingUpdateState) :
    (effects.foldl applyEffect (markProcessed sockets state))[i]? = some { s with
      processed := s.processed || state.registers i
      closed := s.closed || decide (.close i ∈ effects) } := by
  rw [getElem?_effects, getElem?_markProcessed, h]
  rfl

theorem Enrolled.command {w : World} (h : Enrolled w) {update : StreamingUpdate} {queue : List StreamingUpdate}
    (hqueue : w.shared.queue = update :: queue) :
    Enrolled ⟨{ w.shared with queue, task := (handleUpdate w.shared.task update).1 },
      (handleUpdate w.shared.task update).2.foldl applyEffect (markProcessed w.sockets update.state)⟩ := by
  have honce := h.once
  rw [hqueue] at honce
  obtain ⟨hfirst, honce⟩ := pairwise_cons.1 honce
  constructor
  · intro later hlater i hi
    obtain ⟨s, hs, hdid, hprocessed, hasked⟩ :=
      h.queued later (by rw [hqueue]; exact mem_cons_of_mem _ hlater) i hi
    refine ⟨_, command_of_socket hs _ _, hdid, ?_, hasked⟩
    -- a later registration is another connection's
    cases hreg : update.state.registers i with
    | false => simp [hprocessed]
    | true => exact absurd (hfirst later hlater i hreg) (by simp [hi])
  · exact honce
  · intro i s' hs' hprocessed
    obtain ⟨s, hs, rfl⟩ := socket_of_command hs'
    rcases Bool.or_eq_true_iff.1 hprocessed with hold | hnew
    · exact h.asked i s hs hold
    · obtain ⟨s₁, hs₁, -, -, hasked⟩ := h.queued update (by rw [hqueue]; exact mem_cons_self) i hnew
      cases hs.symm.trans hs₁
      exact hasked
  · intro didHash entry hentry
    rcases client_of_handleUpdate hentry with ⟨old, hold, htx⟩ | ⟨hreg, rfl⟩
    · obtain ⟨s, hs, hdid⟩ := h.client didHash old hold
      rw [htx] at hs
      exact ⟨_, command_of_socket hs _ _, hdid⟩
    · obtain ⟨s, hs, hdid, -, -⟩ := h.queued update (by rw [hqueue]; exact mem_cons_self) entry.tx hreg
      exact ⟨_, command_of_socket hs _ _, hdid⟩

theorem getElem?_set_pc {s : Socket} (hs : sockets[i]? = some s) (pc : SocketPc)
    (j : ℕ) :
    (sockets.set i { s with pc })[j]? = if i = j then some { s with pc } else sockets[j]? := by
  by_cases hij : i = j
  · subst hij
    rw [if_pos rfl, getElem?_set_self (List.getElem?_eq_some_iff.1 hs).1]
  · rw [if_neg hij, getElem?_set_ne hij]

theorem Enrolled.socket {w : World} (h : Enrolled w) {i : ℕ} {s : Socket} (hs : w.sockets[i]? = some s)
    {sh : Shared} {pc : SocketPc} (hmoves : MovesQueue i s w.shared sh s.pc pc) :
    Enrolled ⟨sh, w.sockets.set i { s with pc }⟩ := by
  -- a connection keeps its DID and its flag, and does not go back before its registration
  have hkeep : ∀ {j : ℕ} {s₁ : Socket}, w.sockets[j]? = some s₁ →
      ∃ s₂, (w.sockets.set i { s with pc })[j]? = some s₂ ∧ s₂.didHash = s₁.didHash ∧ s₂.processed = s₁.processed ∧
        (s₁.pc.asked = true → s₂.pc.asked = true) := by
    intro j s₁ hs₁
    rw [getElem?_set_pc hs]
    by_cases hij : i = j
    · subst hij
      cases hs.symm.trans hs₁
      exact ⟨_, if_pos rfl, rfl, rfl, hmoves.asked⟩
    · exact ⟨s₁, by rw [if_neg hij]; exact hs₁, rfl, rfl, id⟩
  have hqueued : ∀ update ∈ w.shared.queue, ∀ j, update.state.registers j = true →
      ∃ s₂, (w.sockets.set i { s with pc })[j]? = some s₂ ∧ s₂.didHash = update.didHash ∧ s₂.processed = false ∧
        s₂.pc.asked = true := by
    intro update hupdate j hj
    obtain ⟨s₁, hs₁, hdid, hprocessed, hasked⟩ := h.queued update hupdate j hj
    obtain ⟨s₂, hs₂, hdid₂, hprocessed₂, hasked₂⟩ := hkeep hs₁
    exact ⟨s₂, hs₂, hdid₂.trans hdid, hprocessed₂.trans hprocessed, hasked₂ hasked⟩
  have hasked : ∀ (j : ℕ) (s₂ : Socket), (w.sockets.set i { s with pc })[j]? = some s₂ → s₂.processed = true →
      s₂.pc.asked = true := by
    intro j s₂ hs₂ hprocessed
    rw [getElem?_set_pc hs] at hs₂
    by_cases hij : i = j
    · rw [if_pos hij] at hs₂
      cases hs₂
      exact hmoves.asked (h.asked i s hs hprocessed)
    · rw [if_neg hij] at hs₂
      exact h.asked j s₂ hs₂ hprocessed
  have hclient : ∀ didHash entry, sh.task.clients didHash = some entry →
      ∃ s₂, (w.sockets.set i { s with pc })[entry.tx]? = some s₂ ∧ s₂.didHash = didHash := by
    intro didHash entry hentry
    rw [hmoves.task] at hentry
    obtain ⟨s₁, hs₁, hdid⟩ := h.client didHash entry hentry
    obtain ⟨s₂, hs₂, hdid₂, -⟩ := hkeep hs₁
    exact ⟨s₂, hs₂, hdid₂.trans hdid⟩
  rcases hmoves.queue with hqueue | ⟨hadmitted, hpc, hqueue⟩ | hqueue
  · exact ⟨by rw [hqueue]; exact hqueued, by rw [hqueue]; exact h.once, hasked, hclient⟩
  · have hnot : s.processed = false := by
      cases hprocessed : s.processed with
      | false => rfl
      | true =>
        have := h.asked i s hs hprocessed
        rw [hadmitted] at this
        cases this
    refine ⟨?_, ?_, hasked, hclient⟩
    · intro update hupdate j hj
      rw [hqueue] at hupdate
      rcases mem_append.1 hupdate with hupdate | hupdate
      · exact hqueued update hupdate j hj
      · obtain rfl := mem_singleton.1 hupdate
        obtain rfl : i = j := by simpa [registers] using hj
        exact ⟨{ s with pc }, by rw [getElem?_set_pc hs, if_pos rfl], rfl, hnot, hpc⟩
    · rw [hqueue]
      refine pairwise_append.2 ⟨h.once, pairwise_singleton _ _, ?_⟩
      intro update hupdate new hnew j hj
      obtain rfl := mem_singleton.1 hnew
      -- who is queued already has asked, and this one has not
      have hne : i ≠ j := by
        rintro rfl
        obtain ⟨s₁, hs₁, -, -, hasked₁⟩ := h.queued update hupdate i hj
        cases hs.symm.trans hs₁
        rw [hadmitted] at hasked₁
        cases hasked₁
      simp [registers, hne]
  · refine ⟨?_, ?_, hasked, hclient⟩
    · intro update hupdate j hj
      rw [hqueue] at hupdate
      rcases mem_append.1 hupdate with hupdate | hupdate
      · exact hqueued update hupdate j hj
      · obtain rfl := mem_singleton.1 hupdate
        cases hj
    · rw [hqueue]
      refine pairwise_append.2 ⟨h.once, pairwise_singleton _ _, ?_⟩
      intro update _ new hnew j _
      obtain rfl := mem_singleton.1 hnew
      rfl

variable {receiving : ℕ → Bool}

theorem client_of_dispatchPayload {payload : PubSubRecord} : (dispatchPayload receiving task payload).1.clients
    didHash = some entry → task.clients didHash = some entry := by
  unfold dispatchPayload
  cases task.clients payload.didHash with
  | none => exact id
  | some old =>
    simp only
    split
    · split
      · exact id
      · intro h
        by_cases hdid : didHash = payload.didHash
        · simp [hdid] at h
        · exact (update_of_ne hdid none task.clients).symm.trans h
    · exact id

theorem dispatchPayload_keeps (payload : PubSubRecord) (h : task.clients didHash = some entry)
    (hreceiving : receiving entry.tx = true) :
    (dispatchPayload receiving task payload).1.clients didHash = some entry := by
  unfold dispatchPayload
  cases hold : task.clients payload.didHash with
  | none => exact h
  | some old =>
    simp only
    split
    · split
      · exact h
      · rename_i hgone
        have hdid : didHash ≠ payload.didHash := by
          rintro rfl
          cases h.symm.trans hold
          exact hgone hreceiving
        exact (update_of_ne hdid none task.clients).trans h
    · exact h

variable {w w' : World} {t : Turn}

/-- A turn registers connections under their own DID only, and once. -/
theorem Enrolled.step (h : Enrolled w) (hstep : w.step limits t = some w') : Enrolled w' := by
  cases t with
  | connect did didHash expiresAt tspMode =>
    cases hstep
    have happend : ∀ {i : ℕ} {s : Socket}, w.sockets[i]? = some s →
        (w.sockets ++ [⟨did, didHash, expiresAt, tspMode, .start, false, false⟩])[i]? = some s := by
      intro i s hs
      rw [getElem?_append_left (List.getElem?_eq_some_iff.1 hs).1]
      exact hs
    refine ⟨?_, h.once, ?_, ?_⟩
    · intro update hupdate i hi
      obtain ⟨s, hs, hrest⟩ := h.queued update hupdate i hi
      exact ⟨s, happend hs, hrest⟩
    · intro i s hs hprocessed
      rcases Nat.lt_or_ge i w.sockets.length with hlt | hge
      · rw [getElem?_append_left hlt] at hs
        exact h.asked i s hs hprocessed
      · rw [getElem?_append_right hge] at hs
        obtain rfl := mem_singleton.1 (mem_of_getElem? hs)
        cases hprocessed
    · intro didHash' entry hentry
      obtain ⟨s, hs, hdid⟩ := h.client didHash' entry hentry
      exact ⟨s, happend hs, hdid⟩
  | socket i event =>
    obtain ⟨s, sh, pc, hs, hmove, rfl⟩ := step_socket hstep
    exact h.socket hs (handleSocket_movesQueue hmove)
  | command =>
    obtain ⟨update, queue, hqueue, rfl⟩ := step_command hstep
    exact h.command hqueue
  | dispatch payload =>
    cases hstep
    exact ⟨h.queued, h.once, h.asked, fun didHash entry hentry =>
      h.client didHash entry (client_of_dispatchPayload hentry)⟩
  | liveDelivery didHash active =>
    obtain rfl := step_liveDelivery hstep
    have hnone : ∀ i, (if active then start else .stop).registers i = false := by
      intro i
      cases active <;> rfl
    refine ⟨?_, ?_, h.asked, h.client⟩
    · intro update hupdate i hi
      rcases mem_append.1 hupdate with hupdate | hupdate
      · exact h.queued update hupdate i hi
      · obtain rfl := mem_singleton.1 hupdate
        exact absurd hi (by simp [hnone])
    · refine pairwise_append.2 ⟨h.once, pairwise_singleton _ _, ?_⟩
      intro update _ new hnew i _
      obtain rfl := mem_singleton.1 hnew
      exact hnone i
  | redelivered didHash =>
    cases hstep
    exact ⟨h.queued, h.once, h.asked, h.client⟩

variable {ok : World → Turn → Prop}

theorem Run.enrolled (h : Run limits ok w) : Enrolled w := by
  induction h with
  | start =>
    refine ⟨?_, List.Pairwise.nil, ?_, ?_⟩
    · rintro update hupdate
      cases hupdate
    · rintro i s hs
      cases hs
    · rintro didHash entry hentry
      cases hentry
  | turn _ t _ hstep ih => exact ih.step hstep

/-! ## Staying registered -/

theorem LiveRegistered.mono (h : LiveRegistered w)
    (hlive : ∀ (i : ℕ) (s' : Socket), w'.sockets[i]? = some s' → s'.Live → ∃ s, w.sockets[i]? = some s ∧ s.Live ∧
    s.didHash = s'.didHash) (hclients : ∀ (i : ℕ) (s : Socket) entry, w.sockets[i]? = some s → s.Live →
    w.shared.task.clients s.didHash = some entry → entry.tx = i → ∃ entry', w'.shared.task.clients s.didHash =
    some entry' ∧ entry'.tx = i) : LiveRegistered w' := by
  intro i s' hs' hlive'
  obtain ⟨s, hs, hlives, hdid⟩ := hlive i s' hs' hlive'
  obtain ⟨entry, hentry, htx⟩ := h i s hs hlives
  rw [← hdid]
  exact hclients i s entry hs hlives hentry htx

theorem LiveRegistered.command {w : World} (h : LiveRegistered w) (henrolled : Enrolled w)
    {update : StreamingUpdate} {queue : List StreamingUpdate} (hqueue : w.shared.queue = update :: queue)
    (hok : DeregistersDeparted w .command) :
    LiveRegistered ⟨{ w.shared with queue, task := (handleUpdate w.shared.task update).1 },
      (handleUpdate w.shared.task update).2.foldl applyEffect (markProcessed w.sockets update.state)⟩ := by
  intro i s' hs' hlive'
  obtain ⟨s, hs, rfl⟩ := socket_of_command hs'
  obtain ⟨hprocessed, hneither, hopen⟩ := hlive'
  obtain ⟨hclosed, hspared⟩ := Bool.or_eq_false_iff.1 hneither
  replace hspared := of_decide_eq_false hspared
  -- a connection that was registered before, with its entry
  have hbefore : s.processed = true → ∃ entry, w.shared.task.clients s.didHash = some entry ∧ entry.tx = i :=
    fun hold => h i s hs ⟨hold, hclosed, hopen⟩
  have hactive : ∀ target active, s.processed = true →
      ∃ entry, (setActive w.shared.task target active).clients s.didHash = some entry ∧ entry.tx = i := by
    intro target active hold
    obtain ⟨entry, hentry, htx⟩ := hbefore hold
    by_cases hdid : s.didHash = target
    · subst hdid
      exact ⟨{ entry with active }, by simp [setActive, hentry], htx⟩
    · exact ⟨entry, by simp [setActive, hdid, hentry], htx⟩
  obtain ⟨target, state⟩ := update
  cases state with
  | register channel did =>
    simp only [registers, handleUpdate] at hprocessed hspared ⊢
    obtain ⟨s₁, hs₁, hdid₁, -, -⟩ := henrolled.queued ⟨target, .register channel did⟩
      (by rw [hqueue]; exact mem_cons_self) channel (by simp [registers])
    simp only at hdid₁
    rcases handleRegistration_cases w.shared.task target did channel with hrefused | ⟨hclients, hcloses⟩
    · -- refused, and told so
      rw [hrefused] at hspared ⊢
      have hne : channel ≠ i := by
        rintro rfl
        exact hspared mem_cons_self
      exact hbefore (by simpa [hne] using hprocessed)
    · rw [hclients]
      by_cases hi : channel = i
      · subst hi
        cases hs.symm.trans hs₁
        exact ⟨⟨channel, false⟩, by rw [hdid₁, update_self], rfl⟩
      · obtain ⟨entry, hentry, htx⟩ := hbefore (by simpa [hi] using hprocessed)
        have hdid : s.didHash ≠ target := by
          intro hdid
          exact hspared ((hcloses i).2 ⟨entry, hdid ▸ hentry, htx⟩)
        exact ⟨entry, by rw [update_of_ne hdid]; exact hentry, htx⟩
  | start => exact hactive target true (by simpa [registers] using hprocessed)
  | stop => exact hactive target false (by simpa [registers] using hprocessed)
  | deregister =>
    have hold : s.processed = true := by simpa [registers] using hprocessed
    obtain ⟨entry, hentry, rfl⟩ := hbefore hold
    have hdid : s.didHash ≠ target := by
      rintro rfl
      exact hok rfl _ queue hqueue entry hentry s hs ⟨hold, hclosed, hopen⟩
    exact ⟨entry, by simp [handleUpdate, hdid, hentry], rfl⟩

/-- A turn that deregisters only the departed keeps the live sockets registered. -/
theorem LiveRegistered.step (h : LiveRegistered w) (henrolled : Enrolled w) (hok : DeregistersDeparted w t)
    (hstep : w.step limits t = some w') : LiveRegistered w' := by
  cases t with
  | connect did didHash expiresAt tspMode =>
    cases hstep
    refine h.mono ?_ fun i s entry _ _ hentry htx => ⟨entry, hentry, htx⟩
    intro i s' hs' hlive
    rcases Nat.lt_or_ge i w.sockets.length with hlt | hge
    · rw [getElem?_append_left hlt] at hs'
      exact ⟨s', hs', hlive, rfl⟩
    · rw [getElem?_append_right hge] at hs'
      obtain rfl := mem_singleton.1 (mem_of_getElem? hs')
      cases hlive.1
  | socket i event =>
    obtain ⟨s, sh, pc, hs, hmove, rfl⟩ := step_socket hstep
    have hmoves := handleSocket_movesQueue hmove
    refine h.mono ?_ fun j s₁ entry _ _ hentry htx => ⟨entry, by rw [hmoves.task]; exact hentry, htx⟩
    intro j s' hs' hlive
    rw [getElem?_set_pc hs] at hs'
    by_cases hij : i = j
    · subst hij
      rw [if_pos rfl] at hs'
      cases hs'
      obtain ⟨hprocessed, hclosed, hopen⟩ := hlive
      rcases hmoves.opened hopen with hopen | hadmitted
      · exact ⟨s, hs, ⟨hprocessed, hclosed, hopen⟩, rfl⟩
      · -- not asked yet, so not processed
        have hasked := henrolled.asked i s hs hprocessed
        rw [hadmitted] at hasked
        cases hasked
    · rw [if_neg hij] at hs'
      exact ⟨s', hs', hlive, rfl⟩
  | command =>
    obtain ⟨update, queue, hqueue, rfl⟩ := step_command hstep
    exact h.command henrolled hqueue hok
  | dispatch payload =>
    cases hstep
    refine h.mono (fun i s hs hlive => ⟨s, hs, hlive, rfl⟩) ?_
    intro i s entry hs hlive hentry htx
    refine ⟨entry, dispatchPayload_keeps payload hentry ?_, htx⟩
    obtain ⟨-, -, hopen⟩ := hlive
    simp only [World.receiving, htx, hs, map_some, getD_some]
    cases hpc : s.pc with
    | dropping released | returned released =>
      rw [hpc] at hopen
      cases hopen
    | _ => rfl
  | liveDelivery didHash active =>
    obtain rfl := step_liveDelivery hstep
    exact h
  | redelivered didHash =>
    cases hstep
    exact h

theorem Run.liveRegistered (h : Run limits DeregistersDeparted w) : LiveRegistered w := by
  induction h with
  | start =>
    intro i s hs
    cases hs
  | turn hrun t hok hstep ih => exact ih.step hrun.enrolled hok hstep

/-! ## A connection adrift -/

/-- A live connection that no DID has for a client. -/
structure Adrift (i : ℕ) (w : World) : Prop where
  enrolled : Enrolled w
  live : ∃ s, w.sockets[i]? = some s ∧ s.Live
  nowhere : ∀ didHash entry, w.shared.task.clients didHash = some entry → entry.tx ≠ i

theorem Adrift.not_liveRegistered (h : Adrift i w) : ¬LiveRegistered w := by
  obtain ⟨s, hs, hlive⟩ := h.live
  intro hregistered
  obtain ⟨entry, hentry, htx⟩ := hregistered i s hs hlive
  exact h.nowhere _ entry hentry htx

theorem Adrift.command {w : World} (h : Adrift i w) {update : StreamingUpdate}
    {queue : List StreamingUpdate} (hqueue : w.shared.queue = update :: queue) :
    Adrift i ⟨{ w.shared with queue, task := (handleUpdate w.shared.task update).1 },
      (handleUpdate w.shared.task update).2.foldl applyEffect (markProcessed w.sockets update.state)⟩ := by
  obtain ⟨s, hs, hprocessed, hclosed, hopen⟩ := h.live
  have hnot : update.state.registers i = false := by
    cases hreg : update.state.registers i with
    | false => rfl
    | true =>
      obtain ⟨s₁, hs₁, -, hnew, -⟩ := h.enrolled.queued update (by rw [hqueue]; exact mem_cons_self) i hreg
      cases hs.symm.trans hs₁
      rw [hprocessed] at hnew
      cases hnew
  have hspared : .close i ∉ (handleUpdate w.shared.task update).2 := by
    obtain ⟨target, state⟩ := update
    cases state with
    | register channel did =>
      simp only [registers, decide_eq_false_iff_not] at hnot
      rcases handleRegistration_cases w.shared.task target did channel with hrefused | ⟨-, hcloses⟩
      · simp only [handleUpdate, hrefused, mem_singleton, StreamingEffect.close.injEq]
        exact fun heq => hnot heq.symm
      · intro hclose
        obtain ⟨old, hold, htx⟩ := (hcloses i).1 hclose
        exact h.nowhere target old hold htx
    | start | stop | deregister => simp [handleUpdate]
  refine ⟨h.enrolled.command hqueue, ⟨_, command_of_socket hs _ _, ?_⟩, ?_⟩
  · exact ⟨by simp [hprocessed], by simp [hclosed, hspared], hopen⟩
  · intro didHash entry hentry
    rcases client_of_handleUpdate hentry with ⟨old, hold, htx⟩ | ⟨hreg, -⟩
    · exact htx ▸ h.nowhere didHash old hold
    · rintro rfl
      rw [hnot] at hreg
      cases hreg

theorem Adrift.drain (h : Adrift i w) (limits : Limits) :
    ∃ w', w.steps limits (List.replicate w.shared.queue.length .command) = some w' ∧ w'.shared.queue = [] ∧
    Adrift i w' := by
  induction hqueue : w.shared.queue generalizing w with
  | nil => exact ⟨w, rfl, hqueue, h⟩
  | cons update queue ih =>
    obtain ⟨w', hsteps, hrest⟩ := ih (h.command hqueue) rfl
    refine ⟨w', ?_, hrest⟩
    rw [length_cons, replicate_succ, World.steps]
    simp only [World.step, hqueue, bind_some]
    exact hsteps

theorem adrift_of_deregister (henrolled : Enrolled w) (hbad : ¬DeregistersDeparted w t)
    (hstep : w.step limits t = some w') : ∃ i, Adrift i w' := by
  unfold DeregistersDeparted at hbad
  push Not at hbad
  obtain ⟨rfl, didHash, queue, hqueue, entry, hentry, s, hs, hlive⟩ := hbad
  obtain ⟨update, queue', hqueue', rfl⟩ := step_command hstep
  cases hqueue.symm.trans hqueue'
  refine ⟨entry.tx, henrolled.command hqueue, ⟨s, ?_, hlive⟩, ?_⟩
  · simpa [handleUpdate, markProcessed] using hs
  · intro other entry' hentry' htx
    obtain ⟨s₁, hs₁, hdid₁⟩ := henrolled.client didHash entry hentry
    by_cases hother : other = didHash
    · subst hother
      simp [handleUpdate] at hentry'
    · simp only [handleUpdate, update_of_ne hother] at hentry'
      obtain ⟨s₂, hs₂, hdid₂⟩ := henrolled.client other entry' hentry'
      rw [htx] at hs₂
      cases hs₁.symm.trans hs₂
      exact hother (hdid₂.symm.trans hdid₁)

/-- As long as no `Deregister` is taken while its DID's client is live, every live connection is
registered, in every state; once one is, the task only has to empty its queue to leave a live
connection that is not. -/
theorem live_socket_registered (limits : Limits) :
    (∀ w, Run limits DeregistersDeparted w → LiveRegistered w) ∧
    ∀ ok w t w', Run limits ok w → ¬DeregistersDeparted w t → w.step limits t = some w' →
      ∃ w'', w'.steps limits (List.replicate w'.shared.queue.length .command) = some w'' ∧
        w''.shared.queue = [] ∧ ¬LiveRegistered w'' := by
  refine ⟨fun w hrun => hrun.liveRegistered, ?_⟩
  intro ok w t w' hrun hbad hstep
  obtain ⟨i, hadrift⟩ := adrift_of_deregister hrun.enrolled hbad hstep
  obtain ⟨w'', hsteps, hempty, hadrift⟩ := hadrift.drain limits
  exact ⟨w'', hsteps, hempty, hadrift.not_liveRegistered⟩

def roomy : Limits := ⟨10, 10, true⟩

/-- The turns that take a new connection into its loop. -/
def opening (i : ℕ) : List Turn :=
  [.connect "did:ex:alice" "alice" 9 false, .socket i .next, .socket i .next, .socket i .next,
    .socket i (.send true), .socket i (.clock 1)]

/-- The old connection ends while the newer one's registration waits in the queue. -/
def overtaken : List Turn := opening 0 ++ [.command] ++ opening 1 ++
    [.socket 0 .exit, .socket 0 (.send true), .command]

theorem Run.of_steps (hok : ∀ w t, ok w t) {turns : List Turn} (h : Run limits ok w)
    (hsteps : w.steps limits turns = some w') : Run limits ok w' := by
  induction turns generalizing w with
  | nil => exact some.inj hsteps ▸ h
  | cons t turns ih =>
    obtain ⟨w₁, hstep, hrest⟩ := bind_eq_some_iff.1 hsteps
    exact ih (.turn h t (hok w t) hstep) hrest

theorem overtaken_state : ∃ w, World.steps roomy default overtaken = some w ∧
    w.shared.queue = [⟨"alice", .deregister⟩] ∧ w.shared.task.clients "alice" = some ⟨1, false⟩ ∧
    w.sockets[1]? = some ⟨"did:ex:alice", "alice", 9, false, .looping, true, false⟩ := by
  have hrun : ((World.steps roomy default overtaken).map fun w =>
      (w.shared.queue, w.shared.task.clients "alice", w.sockets[1]?)) =
      some ([⟨"alice", .deregister⟩], some ⟨1, false⟩,
        some ⟨"did:ex:alice", "alice", 9, false, .looping, true, false⟩) := by
    decide +kernel
  obtain ⟨w, hw, heq⟩ := map_eq_some_iff.1 hrun
  simp only [Prod.mk.injEq] at heq
  exact ⟨w, hw, heq⟩

/-- Two runs of a reconnect, one that goes well and one that does not. -/
theorem live_socket_registered_reconnect :
    (∃ w, Run roomy DeregistersDeparted w ∧ LiveRegistered w ∧
      (w.sockets.map fun s => (s.processed, s.closed)) = [(true, true), (true, false)]) ∧
    ∃ w w' w'', Run roomy (fun _ _ => True) w ∧ w.step roomy .command = some w' ∧
      w'.steps roomy (List.replicate w'.shared.queue.length .command) = some w'' ∧ ¬LiveRegistered w'' := by
  obtain ⟨hkeeps, hloses⟩ := live_socket_registered roomy
  constructor
  · have hrun := @Run.start roomy DeregistersDeparted
      |>.turn (.connect "did:ex:alice" "alice" 9 false) nofun rfl
      |>.turn (.socket 0 .next) nofun rfl
      |>.turn (.socket 0 .next) nofun rfl
      |>.turn (.socket 0 .next) nofun rfl
      |>.turn (.socket 0 (.send true)) nofun rfl
      |>.turn .command (fun _ _ _ hqueue => nomatch hqueue) rfl
      |>.turn (.connect "did:ex:alice" "alice" 9 false) nofun rfl
      |>.turn (.socket 1 .next) nofun rfl
      |>.turn (.socket 1 .next) nofun rfl
      |>.turn (.socket 1 .next) nofun rfl
      |>.turn (.socket 1 (.send true)) nofun rfl
      |>.turn .command (fun _ _ _ hqueue => nomatch hqueue) rfl
    exact ⟨_, hrun, hkeeps _ hrun, rfl⟩
  · obtain ⟨w, hw, hqueue, hclient, hsocket⟩ := overtaken_state
    have hrun : Run roomy (fun _ _ => True) w := Run.start.of_steps (fun _ _ => trivial) hw
    have hbad : ¬DeregistersDeparted w .command := fun h => h rfl _ _ hqueue _ hclient _ hsocket ⟨rfl, rfl, rfl⟩
    obtain ⟨w', hstep⟩ : ∃ w', w.step roomy .command = some w' := by simp [World.step, hqueue]
    obtain ⟨w'', hsteps, -, hnot⟩ := hloses _ w .command w' hrun hbad hstep
    exact ⟨w, w', w'', hrun, hstep, hsteps, hnot⟩

/-- The queue is empty, the newer connection is live, and its DID has no client. -/
theorem deregister_removes_successor :
    ∃ w s, Run roomy (fun _ _ => True) w ∧ w.shared.queue = [] ∧ w.sockets[1]? = some s ∧ s.Live ∧
      w.shared.task.clients s.didHash = none ∧ ¬LiveRegistered w := by
  obtain ⟨w, hw, hqueue, hclient, hsocket⟩ := overtaken_state
  have hrun : Run roomy (fun _ _ => True) w := Run.start.of_steps (fun _ _ => trivial) hw
  obtain ⟨w', hstep⟩ : ∃ w', w.step roomy .command = some w' := by simp [World.step, hqueue]
  have hrun' : Run roomy (fun _ _ => True) w' := hrun.turn .command trivial hstep
  obtain ⟨update, queue, hqueue', rfl⟩ := step_command hstep
  cases hqueue.symm.trans hqueue'
  have hlive : (⟨"did:ex:alice", "alice", 9, false, .looping, true, false⟩ : Socket).Live := ⟨rfl, rfl, rfl⟩
  have hnone : (handleUpdate w.shared.task ⟨"alice", .deregister⟩).1.clients "alice" = none := by
    simp [handleUpdate]
  refine ⟨_, _, hrun', rfl, hsocket, hlive, hnone, ?_⟩
  intro hregistered
  obtain ⟨entry, hentry, -⟩ := hregistered 1 _ hsocket hlive
  cases hnone.symm.trans hentry

end AffinidiTdk.Websocket
