/-
The two connection counts. The per-DID count is released by a guard on every way out of
`handle_socket`; the global one is given back by hand, and two of the ways out forget it.
-/
import AffinidiTdk.Websocket.Socket
import Mathlib.Tactic.Cases

namespace AffinidiTdk.Websocket

open List Option SocketPc Shared World

/-! ## Counting invocations -/

/-- The invocation has taken a slot of the global count and not given it back. -/
def SocketPc.holdsSlot : SocketPc → Bool
  | .start | .refused => false
  | .leaving released | .dropping released | .returned released => !released
  | _ => true

/-- The invocation has reserved a per-DID slot and its guard has not counted it down. -/
def SocketPc.guarded : SocketPc → Bool
  | .start | .counted _ | .refused | .dropping _ | .returned _ => false
  | _ => true

/-- The invocation passed the global limit test and has not returned. -/
def SocketPc.passed (limits : Limits) : SocketPc → Bool
  | .counted current => current < limits.maxWebsocketConnections
  | .start | .refused | .returned _ => false
  | _ => true

/-- The invocation failed the test and has not taken its increment back yet. -/
def SocketPc.overLimit (limits : Limits) : SocketPc → Bool
  | .counted current => limits.maxWebsocketConnections ≤ current
  | _ => false

/-- The invocation has given its slot back and has not returned yet. -/
def SocketPc.givenBack : SocketPc → Bool
  | .leaving released | .dropping released => released
  | _ => false

/-- The invocation returned with its slot. -/
def SocketPc.leaked : SocketPc → Bool
  | .returned released => !released
  | _ => false

def SocketPc.isReturned : SocketPc → Bool
  | .returned _ => true
  | _ => false

def World.number (w : World) (p : SocketPc → Bool) : ℕ := w.sockets.countP fun s => p s.pc

/-- The running invocations of a DID. -/
def World.running (w : World) (didHash : String) : ℕ :=
  w.sockets.countP fun s => s.didHash = didHash ∧ s.pc.guarded

/-- Every slot of the global count is somebody's: one each for those that passed the test and have
not returned, but for the ones just given back, and one for each refusal not yet taken back. The
per-DID counts are the numbers of running invocations, and an entry at zero is about to go. -/
structure SlotsExact (limits : Limits) (w : World) : Prop where
  active : w.shared.activeWebsocketCount + w.number SocketPc.givenBack =
    w.number (SocketPc.passed limits) + w.number (SocketPc.overLimit limits)
  perDid : ∀ didHash, (w.shared.wsConnectionsPerDid didHash).getD 0 = w.running didHash
  idle : ∀ didHash, w.shared.wsConnectionsPerDid didHash = some 0 →
    ∃ s ∈ w.sockets, s.didHash = didHash ∧ ∃ released, s.pc = .dropping released

/-! ## Lists of invocations -/

variable {α : Type} {i : ℕ}

theorem countP_set_add {p : α → Bool} {l : List α} {x : α} (h : l[i]? = some x) (a : α) :
    (l.set i a).countP p + (p x).toNat = l.countP p + (p a).toNat := by
  induction l generalizing i with
  | nil => cases h
  | cons y ys ih =>
    cases i with
    | zero =>
      obtain rfl : y = x := by simpa using h
      rw [set_cons_zero, countP_cons, countP_cons]
      cases p y <;> cases p a <;> simp
    | succ i =>
      have hrest := ih (i := i) (by simpa using h)
      rw [set_cons_succ, countP_cons, countP_cons]
      omega

theorem countP_modify {p : α → Bool} {f : α → α} (hf : ∀ a, p (f a) = p a) (l : List α) (i : ℕ) :
    (l.modify i f).countP p = l.countP p := by
  induction l generalizing i with
  | nil => cases i <;> rfl
  | cons y ys ih =>
    cases i with
    | zero => simp [modify_zero_cons, countP_cons, hf]
    | succ i => simp [modify_succ_cons, countP_cons, ih]

theorem countP_effects {p : Socket → Bool} (hp : ∀ s processed closed, p { s with processed, closed } = p s)
    (effects : List StreamingEffect) (state : StreamingUpdateState) (sockets : List Socket) :
    (effects.foldl applyEffect (markProcessed sockets state)).countP p = sockets.countP p := by
  have hmark : (markProcessed sockets state).countP p = sockets.countP p := by
    cases state with
    | register channel did => exact countP_modify (fun s => hp s true s.closed) _ _
    | start => rfl
    | stop => rfl
    | deregister => rfl
  rw [← hmark]
  generalize markProcessed sockets state = marked
  induction effects generalizing marked with
  | nil => rfl
  | cons effect effects ih =>
    rw [foldl_cons, ih]
    cases effect with
    | close channel => exact countP_modify (fun s => hp s s.processed true) _ _
    | redeliver channel didHash => rfl

/-! ## Steps -/

/-- A step of an invocation moves the counts by what it takes and gives back. -/
structure MovesSlots (s : Socket) (sh sh' : Shared) (pc pc' : SocketPc) : Prop where
  active : (pc.holdsSlot = true → 0 < sh.activeWebsocketCount) →
    sh'.activeWebsocketCount + pc.holdsSlot.toNat = sh.activeWebsocketCount + pc'.holdsSlot.toNat
  perDid : (pc.guarded = true → 0 < (sh.wsConnectionsPerDid s.didHash).getD 0) →
    (sh'.wsConnectionsPerDid s.didHash).getD 0 + pc.guarded.toNat =
      (sh.wsConnectionsPerDid s.didHash).getD 0 + pc'.guarded.toNat
  others : ∀ didHash, didHash ≠ s.didHash → sh'.wsConnectionsPerDid didHash = sh.wsConnectionsPerDid didHash
  idle : sh'.wsConnectionsPerDid s.didHash = some 0 → (∃ released, pc' = .dropping released) ∨
    (sh.wsConnectionsPerDid s.didHash = some 0 ∧ ∀ released, pc ≠ .dropping released)

theorem MovesSlots.of_same {s : Socket} {sh sh' : Shared} {pc pc' : SocketPc}
    (hactive : sh'.activeWebsocketCount = sh.activeWebsocketCount)
    (hperDid : sh'.wsConnectionsPerDid = sh.wsConnectionsPerDid) (hslot : pc'.holdsSlot = pc.holdsSlot)
    (hguard : pc'.guarded = pc.guarded) (hdropping : ∀ released, pc ≠ .dropping released) :
    MovesSlots s sh sh' pc pc' where
  active := fun _ => by rw [hactive, hslot]
  perDid := fun _ => by rw [hperDid, hguard]
  others := fun _ _ => by rw [hperDid]
  idle := fun hzero => .inr ⟨by rw [← hperDid]; exact hzero, hdropping⟩

theorem movesSlots_giveBack {s : Socket} {sh : Shared} {pc pc' : SocketPc} (hslot : pc.holdsSlot = true)
    (hslot' : pc'.holdsSlot = false) (hguard : pc'.guarded = pc.guarded)
    (hdropping : ∀ released, pc ≠ .dropping released) : MovesSlots s sh sh.giveBack pc pc' where
  active := fun hpos => by
    have hpos := hpos hslot
    rw [hslot, hslot']
    simp only [giveBack, Bool.toNat_true, Bool.toNat_false]
    omega
  perDid := fun _ => by rw [hguard]; rfl
  others := fun _ _ => rfl
  idle := fun hzero => .inr ⟨hzero, hdropping⟩

variable {limits : Limits} {sh : Shared} {s : Socket} {pc : SocketPc} {event : SocketEvent}

theorem handleSocket_movesSlots {sh' : Shared} {channel : ℕ} {pc' : SocketPc}
    (h : handleSocket limits sh channel s pc event = some (sh', pc')) : MovesSlots s sh sh' pc pc' := by
  unfold handleSocket at h
  split at h
  · -- the increment
    cases h
    exact ⟨fun _ => rfl, fun _ => rfl, fun _ _ => rfl, fun hzero => .inr ⟨hzero, by simp⟩⟩
  · -- the test and the reservation
    split at h
    · cases h
      exact movesSlots_giveBack rfl rfl rfl (by simp)
    · cases h
      refine ⟨fun _ => rfl, fun _ => ?_, fun didHash hne => ?_, fun hzero => ?_⟩
      · simp [reserve, guarded]
      · simp [reserve, hne]
      · simp [reserve] at hzero
  · cases h
    exact .of_same rfl rfl rfl rfl (by simp)
  · -- the limit of one DID
    split at h
    · cases h
      exact movesSlots_giveBack rfl rfl rfl (by simp)
    · cases h
      exact .of_same rfl rfl rfl rfl (by simp)
  · -- registering
    split at h
    · split at h
      · obtain ⟨sh₁, henqueue, heq⟩ := map_eq_some_iff.1 h
        cases heq
        obtain ⟨-, rfl⟩ := enqueue_eq_some henqueue
        exact .of_same rfl rfl rfl rfl (by simp)
      · cases h
        exact .of_same rfl rfl rfl rfl (by simp)
    · cases h
      exact .of_same rfl rfl rfl rfl (by simp)
  · -- the first look at the clock
    split at h
    · cases h
      exact .of_same rfl rfl rfl rfl (by simp)
    · cases h
      cases s.tspMode <;> exact .of_same rfl rfl rfl rfl (by simp)
  · rename_i gone
    cases h
    cases gone <;> exact .of_same rfl rfl rfl rfl (by simp)
  · cases h
    exact .of_same rfl rfl rfl rfl (by simp)
  · -- a close from the streaming task
    split at h
    · cases h
      exact .of_same rfl rfl rfl rfl (by simp)
    · cases h
  · -- deregistering
    split at h
    · obtain ⟨sh₁, henqueue, heq⟩ := map_eq_some_iff.1 h
      cases heq
      obtain ⟨-, rfl⟩ := enqueue_eq_some henqueue
      exact .of_same rfl rfl rfl rfl (by simp)
    · cases h
      exact .of_same rfl rfl rfl rfl (by simp)
  · cases h
    exact movesSlots_giveBack rfl rfl rfl (by simp)
  · -- the guard counts down
    rename_i released
    cases h
    refine ⟨fun _ => rfl, fun hpos => ?_, fun didHash hne => ?_, fun _ => .inl ⟨released, rfl⟩⟩
    · have hpos := hpos rfl
      cases hcount : sh.wsConnectionsPerDid s.didHash with
      | none => simp [hcount] at hpos
      | some count =>
        simp only [hcount, getD_some] at hpos
        simp only [countDown, hcount, map_some, Function.update_self, getD_some,
          guarded, Bool.toNat_true, Bool.toNat_false]
        omega
    · simp [countDown, hne]
  · -- and removes what stands at zero
    cases h
    by_cases hzero : sh.wsConnectionsPerDid s.didHash = some 0
    · refine ⟨fun _ => ?_, fun _ => ?_, fun didHash hne => ?_, fun hafter => ?_⟩
      · simp [removeIdle, hzero, holdsSlot]
      · simp [removeIdle, hzero, guarded]
      · simp [removeIdle, hzero, hne]
      · simp [removeIdle, hzero] at hafter
    · rw [removeIdle, if_neg hzero]
      exact ⟨fun _ => rfl, fun _ => rfl, fun _ _ => rfl, fun hafter => absurd hafter hzero⟩
  · cases h

/-! ## Runs -/

/-- What every run keeps, leaks and all. -/
structure SlotsCounted (w : World) : Prop where
  active : w.shared.activeWebsocketCount = w.number SocketPc.holdsSlot
  perDid : ∀ didHash, (w.shared.wsConnectionsPerDid didHash).getD 0 = w.running didHash
  idle : ∀ didHash, w.shared.wsConnectionsPerDid didHash = some 0 →
    ∃ (i : ℕ) (s : Socket), w.sockets[i]? = some s ∧ s.didHash = didHash ∧ ∃ released, s.pc = .dropping released

variable {w : World}

theorem SlotsCounted.congr {w' : World} (h : SlotsCounted w)
    (hactive : w'.shared.activeWebsocketCount = w.shared.activeWebsocketCount)
    (hperDid : w'.shared.wsConnectionsPerDid = w.shared.wsConnectionsPerDid) (hsockets : w'.sockets = w.sockets) :
    SlotsCounted w' := by
  obtain ⟨ha, hp, hi⟩ := h
  constructor
  · rw [hactive, number, hsockets]
    exact ha
  · intro didHash
    rw [hperDid, running, hsockets]
    exact hp didHash
  · rw [hperDid, hsockets]
    exact hi

theorem SlotsCounted.connect (h : SlotsCounted w) (did didHash : String) (expiresAt : ℕ) (tspMode : Bool) :
    SlotsCounted { w with sockets := w.sockets ++ [⟨did, didHash, expiresAt, tspMode, .start, false, false⟩]
    } := by
  constructor
  · simp [number, holdsSlot, h.active]
  · intro didHash'
    simp [running, guarded, h.perDid didHash']
  · intro didHash' hzero
    obtain ⟨i, s, hs, hrest⟩ := h.idle didHash' hzero
    refine ⟨i, s, ?_, hrest⟩
    rw [getElem?_append_left (List.getElem?_eq_some_iff.1 hs).1]
    exact hs

theorem countP_pos_of_getElem? {p : α → Bool} {l : List α} {x : α} (h : l[i]? = some x) (hx : p x = true) :
    0 < l.countP p := countP_pos_iff.2 ⟨x, mem_of_getElem? h, hx⟩

theorem SlotsCounted.socket (h : SlotsCounted w) (hs : w.sockets[i]? = some s)
    (hmoves : MovesSlots s w.shared sh s.pc pc) : SlotsCounted ⟨sh, w.sockets.set i { s with pc }⟩ := by
  constructor
  · have hpos : s.pc.holdsSlot = true → 0 < w.shared.activeWebsocketCount := by
      intro hslot
      rw [h.active]
      exact countP_pos_of_getElem? hs hslot
    have hcount := countP_set_add (p := fun s => s.pc.holdsSlot) hs { s with pc }
    have hmove := hmoves.active hpos
    have hbefore := h.active
    simp only [number] at hbefore ⊢
    simp only at hcount
    omega
  · intro didHash
    have hbefore := h.perDid didHash
    have hcount := countP_set_add (p := fun s => decide (s.didHash = didHash ∧ s.pc.guarded = true)) hs { s with pc }
    simp only [running] at hbefore ⊢
    by_cases hdid : didHash = s.didHash
    · subst hdid
      have hpos : s.pc.guarded = true → 0 < (w.shared.wsConnectionsPerDid s.didHash).getD 0 := by
        intro hguard
        rw [hbefore]
        exact countP_pos_of_getElem? hs (by simp [hguard])
      have hmove := hmoves.perDid hpos
      simp only [true_and, Bool.decide_eq_true] at hcount
      omega
    · rw [hmoves.others didHash hdid]
      simp only [Ne.symm hdid, false_and, decide_false, Bool.toNat_false, Nat.add_zero] at hcount
      rw [hcount]
      exact hbefore
  · intro didHash hzero
    have hi : i < w.sockets.length := (List.getElem?_eq_some_iff.1 hs).1
    by_cases hdid : didHash = s.didHash
    · subst hdid
      rcases hmoves.idle hzero with ⟨released, rfl⟩ | ⟨hbefore, hnot⟩
      · exact ⟨i, _, getElem?_set_self hi, rfl, released, rfl⟩
      · obtain ⟨j, s', hs', hdid, released, hpc⟩ := h.idle _ hbefore
        have hne : i ≠ j := by
          rintro rfl
          cases hs.symm.trans hs'
          exact hnot released hpc
        exact ⟨j, s', by rw [getElem?_set_ne hne]; exact hs', hdid, released, hpc⟩
    · rw [hmoves.others didHash hdid] at hzero
      obtain ⟨j, s', hs', hdid', released, hpc⟩ := h.idle _ hzero
      have hne : i ≠ j := by
        rintro rfl
        cases hs.symm.trans hs'
        exact hdid hdid'.symm
      exact ⟨j, s', by rw [getElem?_set_ne hne]; exact hs', hdid', released, hpc⟩

theorem SlotsCounted.command (h : SlotsCounted w) (update : StreamingUpdate) (queue : List StreamingUpdate)
    (task : StreamingTask) (effects : List StreamingEffect) :
    SlotsCounted ⟨{ w.shared with queue, task }, effects.foldl applyEffect
    (markProcessed w.sockets update.state)⟩ := by
  constructor
  · have hcount := countP_effects (p := fun s => s.pc.holdsSlot) (fun _ _ _ => rfl) effects update.state w.sockets
    rw [number, hcount]
    exact h.active
  · intro didHash
    have hcount := countP_effects (p := fun s => decide (s.didHash = didHash ∧ s.pc.guarded = true))
      (fun _ _ _ => rfl) effects update.state w.sockets
    rw [running, hcount]
    exact h.perDid didHash
  · intro didHash hzero
    obtain ⟨i, s, hs, hdid, released, hpc⟩ := h.idle didHash hzero
    refine ⟨i, { s with
      processed := s.processed || update.state.registers i
      closed := s.closed || decide (.close i ∈ effects) }, ?_, hdid, released, hpc⟩
    rw [getElem?_effects, getElem?_markProcessed, hs]
    rfl

/-- Every turn keeps the counters in step with the sockets, leaks and all. -/
theorem SlotsCounted.step {w' : World} (h : SlotsCounted w) {t : Turn} (hstep : w.step limits t = some w') :
    SlotsCounted w' := by
  cases t with
  | connect did didHash expiresAt tspMode =>
    cases hstep
    exact h.connect did didHash expiresAt tspMode
  | socket i event =>
    obtain ⟨s, sh, pc, hs, hmove, rfl⟩ := step_socket hstep
    exact h.socket hs (handleSocket_movesSlots hmove)
  | command =>
    obtain ⟨update, queue, -, rfl⟩ := step_command hstep
    exact h.command update queue _ _
  | dispatch payload =>
    cases hstep
    exact h.congr rfl rfl rfl
  | liveDelivery didHash active =>
    obtain rfl := step_liveDelivery hstep
    exact h.congr rfl rfl rfl
  | redelivered didHash =>
    cases hstep
    exact h.congr rfl rfl rfl

theorem Run.slotsCounted {ok : World → Turn → Prop} (h : Run limits ok w) : SlotsCounted w := by
  induction h with
  | start => exact ⟨rfl, fun _ => rfl, fun _ hzero => by cases hzero⟩
  | turn _ t _ hstep ih => exact ih.step hstep

/-! ## Slots that are not given back -/

/-- The turn is not one of the two ways out that forget the slot: the command channel is not closed
to a registration, and the token has not expired when the connection first looks at the clock. -/
def SlotKept (limits : Limits) (w : World) : Turn → Prop
  | .socket i (.send false) => ∀ s, w.sockets[i]? = some s → limits.streamingTask = true → s.pc ≠ .admitted
  | .socket i (.clock epoch) => ∀ s, w.sockets[i]? = some s → epoch < s.expiresAt
  | _ => True

/-- On its way out, or out, with its slot. -/
def SocketPc.keepsSlot : SocketPc → Bool
  | .leaving released | .dropping released | .returned released => !released
  | _ => false

theorem keepsSlot_handleSocket (hs : w.sockets[i]? = some s) (hkept : SlotKept limits w (.socket i event))
    (hnot : s.pc.keepsSlot = false) (h : handleSocket limits w.shared i s s.pc event = some (sh, pc)) :
    pc.keepsSlot = false := by
  unfold handleSocket at h
  split at h
  · cases h
    rfl
  · split at h <;> obtain ⟨-, rfl⟩ := Prod.mk.inj (some.inj h) <;> rfl
  · cases h
    rfl
  · split at h <;> obtain ⟨-, rfl⟩ := Prod.mk.inj (some.inj h) <;> rfl
  · -- registering
    rename_i accepted hpc
    split at h
    · rename_i hstreaming
      cases accepted with
      | true =>
        obtain ⟨_, -, heq⟩ := map_eq_some_iff.1 h
        cases heq
        rfl
      | false => exact absurd hpc (hkept s hs hstreaming)
    · cases h
      rfl
  · -- the first look at the clock
    have hlt := hkept s hs
    rw [if_neg (by omega)] at h
    cases h
    cases s.tspMode <;> rfl
  · rename_i gone _
    cases h
    cases gone <;> rfl
  · cases h
    rfl
  · split at h
    · cases h
      rfl
    · cases h
  · split at h
    · obtain ⟨_, -, heq⟩ := map_eq_some_iff.1 h
      cases heq
      rfl
    · cases h
      rfl
  · cases h
    rfl
  · rename_i released hpc
    rw [hpc] at hnot
    cases h
    exact hnot
  · rename_i released hpc
    rw [hpc] at hnot
    cases h
    exact hnot
  · cases h

theorem Run.no_keepsSlot (h : Run limits (SlotKept limits) w) : w.number keepsSlot = 0 := by
  induction h with
  | start => rfl
  | @turn w w' _ t hkept hstep ih =>
    cases t with
    | connect did didHash expiresAt tspMode =>
      cases hstep
      simpa [number, keepsSlot] using ih
    | socket i event =>
      obtain ⟨s, sh, pc, hs, hmove, rfl⟩ := step_socket hstep
      have hnot : s.pc.keepsSlot = false := by
        cases hkeeps : s.pc.keepsSlot with
        | false => rfl
        | true => exact absurd ih (countP_pos_of_getElem? hs hkeeps).ne'
      have hafter := keepsSlot_handleSocket hs hkept hnot hmove
      have hcount := countP_set_add (p := fun s => s.pc.keepsSlot) hs { s with pc }
      simp only [hnot, hafter, Bool.toNat_false, Nat.add_zero] at hcount
      rw [number, hcount]
      exact ih
    | command =>
      obtain ⟨update, queue, -, rfl⟩ := step_command hstep
      rw [number, countP_effects (p := fun s => s.pc.keepsSlot) (fun _ _ _ => rfl)]
      exact ih
    | dispatch payload =>
      cases hstep
      exact ih
    | liveDelivery didHash active =>
      obtain rfl := step_liveDelivery hstep
      exact ih
    | redelivered didHash =>
      cases hstep
      exact ih

/-- Where every slot is: with those that passed the test, with a refusal in flight, or lost with an
invocation that returned. -/
theorem slots_of_pc (limits : Limits) (pc : SocketPc) :
    pc.holdsSlot.toNat + pc.givenBack.toNat =
      (pc.passed limits).toNat + (pc.overLimit limits).toNat + pc.leaked.toNat := by
  cases pc with
  | counted current =>
    by_cases hlt : current < limits.maxWebsocketConnections
    · have hnot : ¬limits.maxWebsocketConnections ≤ current := by omega
      simp [holdsSlot, givenBack, passed, overLimit, leaked, hlt, hnot]
    · have hle : limits.maxWebsocketConnections ≤ current := by omega
      simp [holdsSlot, givenBack, passed, overLimit, leaked, hlt, hle]
  | leaving released | dropping released | returned released => cases released <;> rfl
  | _ => rfl

theorem slots_of_world (limits : Limits) (w : World) :
    w.number holdsSlot + w.number givenBack =
      w.number (passed limits) + w.number (overLimit limits) + w.number leaked := by
  have hcount : ∀ (p : SocketPc → Bool) (s : Socket) (sockets : List Socket),
      (s :: sockets).countP (fun s => p s.pc) = sockets.countP (fun s => p s.pc) + (p s.pc).toNat := by
    intro p s sockets
    rw [countP_cons]
    cases p s.pc <;> rfl
  unfold number
  induction w.sockets with
  | nil => rfl
  | cons s sockets ih =>
    have hpc := slots_of_pc limits s.pc
    simp only [hcount]
    omega

theorem SlotsCounted.exact_iff (h : SlotsCounted w) (limits : Limits) : SlotsExact limits w ↔
    w.number leaked = 0 := by
  have hslots := slots_of_world limits w
  have hactive := h.active
  constructor
  · intro hexact
    have := hexact.active
    omega
  · intro hleaked
    refine ⟨by omega, h.perDid, ?_⟩
    intro didHash hzero
    obtain ⟨i, s, hs, hrest⟩ := h.idle didHash hzero
    exact ⟨s, mem_of_getElem? hs, hrest⟩

variable {p : SocketPc → Bool}

theorem number_le {q : SocketPc → Bool} (h : ∀ pc, p pc = true → q pc = true) : w.number p ≤ w.number q :=
    countP_mono_left fun s _ => h s.pc

theorem SlotsExact.perDid_eq (h : SlotsExact limits w)
    (hdropping : ∀ s ∈ w.sockets, ∀ released, s.pc ≠ .dropping released) (didHash : String) :
    w.shared.wsConnectionsPerDid didHash = if w.running didHash = 0 then none else some (w.running didHash) := by
  have hcount := h.perDid didHash
  cases hentry : w.shared.wsConnectionsPerDid didHash with
  | none =>
    rw [hentry, getD_none] at hcount
    rw [if_pos hcount.symm]
  | some count =>
    rw [hentry, getD_some] at hcount
    subst hcount
    rw [if_neg]
    intro hzero
    obtain ⟨s, hs, -, released, hpc⟩ := h.idle didHash (by rw [hentry, hzero])
    exact hdropping s hs released hpc

/-- A new connection passes both tests. -/
def World.Admits (limits : Limits) (w : World) : Prop :=
  ∀ did didHash expiresAt tspMode, ∃ w', w.steps limits [.connect did didHash expiresAt tspMode,
      .socket w.sockets.length .next, .socket w.sockets.length .next, .socket w.sockets.length .next] = some w' ∧
    (w'.sockets[w.sockets.length]?).map Socket.pc = some .admitted

theorem admits_of_idle (hlimit : 0 < limits.maxWebsocketConnections) (hactive : w.shared.activeWebsocketCount = 0)
    (hperDid : w.shared.wsConnectionsPerDid = fun _ => none) : w.Admits limits := by
  intro did didHash expiresAt tspMode
  have hpass : ¬0 ≥ limits.maxWebsocketConnections := by omega
  refine ⟨⟨{ w.shared.reserve didHash with activeWebsocketCount := 1 },
    w.sockets ++ [⟨did, didHash, expiresAt, tspMode, .admitted, false, false⟩]⟩, ?_, by simp⟩
  simp [steps, step, handleSocket, hactive, hperDid, hpass, reserve]

theorem number_eq_zero (h : ∀ s ∈ w.sockets, p s.pc = false) : w.number p = 0 := by
  refine countP_eq_zero.2 fun s hs => ?_
  rw [h s hs]
  exact Bool.false_ne_true

/-- What the counts say when nobody is between two of the steps that move them. -/
structure AtRest (limits : Limits) (w : World) : Prop where
  active : w.shared.activeWebsocketCount = w.number (SocketPc.passed limits)
  perDid : ∀ didHash,
    w.shared.wsConnectionsPerDid didHash = if w.running didHash = 0 then none else some (w.running didHash)

theorem SlotsExact.atRest (h : SlotsExact limits w) (hkeeps : w.number keepsSlot = 0)
    (hback : w.number givenBack = 0) (hover : w.number (overLimit limits) = 0) :
    AtRest limits w := by
  refine ⟨?_, h.perDid_eq ?_⟩
  · have := h.active
    omega
  · intro s hs released hpc
    cases released with
    | true => exact countP_eq_zero.1 hback s hs (by rw [hpc]; rfl)
    | false => exact countP_eq_zero.1 hkeeps s hs (by rw [hpc]; rfl)

theorem number_ended (hended : ∀ s ∈ w.sockets, s.pc.isReturned = true)
    (hp : ∀ released, p (.returned released) = false) : w.number p = 0 := by
  refine number_eq_zero fun s hs => ?_
  have hreturned := hended s hs
  cases hcase : s.pc with
  | returned released => exact hp released
  | _ =>
    rw [hcase] at hreturned
    cases hreturned

theorem AtRest.of_ended (h : AtRest limits w) (hended : ∀ s ∈ w.sockets, s.pc.isReturned = true) :
    w.shared.activeWebsocketCount = 0 ∧ w.shared.wsConnectionsPerDid = fun _ => none := by
  constructor
  · rw [h.active]
    exact number_ended hended fun _ => rfl
  · funext didHash
    have hle : w.running didHash ≤ w.number guarded := by
      refine countP_mono_left fun s _ hs => ?_
      exact (of_decide_eq_true hs).2
    have hnone := number_ended hended (p := guarded) fun _ => rfl
    rw [h.perDid, if_pos (by omega)]

/-- In a run whose connections all leave by the ways out that give the slot back, the counts are
exact in every state, and once all have ended new connections are admitted. In any run they are
exact as long as no invocation has returned with its slot. -/
theorem websocket_slots_exact (limits : Limits) :
    (∀ w, Run limits (SlotKept limits) w → SlotsExact limits w ∧
      (w.number givenBack = 0 → w.number (overLimit limits) = 0 → AtRest limits w) ∧
      ((∀ s ∈ w.sockets, s.pc.isReturned = true) →
        w.shared.activeWebsocketCount = 0 ∧ w.shared.wsConnectionsPerDid = (fun _ => none) ∧
        (0 < limits.maxWebsocketConnections → w.Admits limits))) ∧
    ∀ ok w, Run limits ok w → (SlotsExact limits w ↔ w.number leaked = 0) := by
  refine ⟨fun w hrun => ?_, fun ok w hrun => hrun.slotsCounted.exact_iff limits⟩
  have hkeeps := hrun.no_keepsSlot
  have hleaked : w.number leaked = 0 := by
    have hle : w.number leaked ≤ w.number keepsSlot := by
      refine number_le fun pc hpc => ?_
      cases pc with
      | returned released => exact hpc
      | _ => cases hpc
    omega
  have hexact := (hrun.slotsCounted.exact_iff limits).2 hleaked
  refine ⟨hexact, hexact.atRest hkeeps, ?_⟩
  intro hended
  have hrest := hexact.atRest hkeeps (number_ended hended fun _ => rfl) (number_ended hended fun _ => rfl)
  obtain ⟨hactive, hperDid⟩ := hrest.of_ended hended
  exact ⟨hactive, hperDid, fun hlimit => admits_of_idle hlimit hactive hperDid⟩

/-- A connection that is over its limit of one for the DID, beside one that is looping. -/
theorem websocket_slots_exact_looping :
    ∃ w, Run ⟨10, 1, true⟩ (SlotKept ⟨10, 1, true⟩) w ∧ (w.sockets.map Socket.pc = [.looping, .leaving true]) ∧
      SlotsExact ⟨10, 1, true⟩ w ∧ (SlotsExact ⟨10, 1, true⟩ w ↔ w.number leaked = 0) := by
  have hrun := @Run.start ⟨10, 1, true⟩ (SlotKept ⟨10, 1, true⟩)
    |>.turn (.connect "did:ex:alice" "alice" 9 false) trivial rfl
    |>.turn (.connect "did:ex:alice" "alice" 9 false) trivial rfl
    |>.turn (.socket 0 .next) trivial rfl
    |>.turn (.socket 0 .next) trivial rfl
    |>.turn (.socket 0 .next) trivial rfl
    |>.turn (.socket 0 (.send true)) trivial rfl
    |>.turn (.socket 0 (.clock 8)) (fun s hs => by obtain rfl := some.inj hs; decide) rfl
    |>.turn (.socket 1 .next) trivial rfl
    |>.turn (.socket 1 .next) trivial rfl
    |>.turn (.socket 1 .next) trivial rfl
  obtain ⟨hkept, hall⟩ := websocket_slots_exact ⟨10, 1, true⟩
  exact ⟨_, hrun, rfl, (hkept _ hrun).1, hall _ _ hrun⟩

/-- One connection with an expired token, and a mediator for one connection is full for good. -/
theorem expired_token_leaks_slot :
    ∃ w, Run ⟨1, 100, true⟩ (fun _ _ => True) w ∧ w.sockets.map Socket.pc = [.returned false] ∧
      w.shared.activeWebsocketCount = 1 ∧ ¬SlotsExact ⟨1, 100, true⟩ w ∧
      (w.steps ⟨1, 100, true⟩ [.connect "did:ex:bob" "bob" 9 false, .socket 1 .next, .socket 1 .next]).map
        (fun w => w.sockets.map Socket.pc) = some [.returned false, .refused] := by
  have hrun := @Run.start ⟨1, 100, true⟩ (fun _ _ => True)
    |>.turn (.connect "did:ex:alice" "alice" 5 false) trivial rfl
    |>.turn (.socket 0 .next) trivial rfl
    |>.turn (.socket 0 .next) trivial rfl
    |>.turn (.socket 0 .next) trivial rfl
    |>.turn (.socket 0 (.send true)) trivial rfl
    |>.turn (.socket 0 (.clock 5)) trivial rfl
    |>.turn (.socket 0 .next) trivial rfl
    |>.turn (.socket 0 .next) trivial rfl
  refine ⟨_, hrun, rfl, rfl, ?_, rfl⟩
  intro hexact
  have hleaked := (hrun.slotsCounted.exact_iff _).1 hexact
  cases hleaked

end AffinidiTdk.Websocket
