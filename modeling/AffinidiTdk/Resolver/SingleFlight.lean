/-
Single-flight resolution (`affinidi-did-resolver-cache-sdk`, `lib.rs`, `resolve_uncached`): callers that
missed the cache, the inflight map with the receiver of each leader's channel, and the cache that anyone
may fill and empty. A DID is its hash, a channel the number under which it was made, and what
`resolve_once` finds is up to the step; a failure is `none`.
-/
import AffinidiTdk.Lib.Except
import Mathlib.Data.List.Basic

namespace AffinidiTdk.Resolver

open Function List Option

/-! ## Callers -/

/-- How far a caller is: before the lock, waiting for the leader's channel to close, before it reads the cache as a
follower, or leading with the sender of its channel: before it reads the cache, in `resolve_once`, before it
fills the cache, before it takes its entry out, and before it drops the sender. -/
inductive Stage (Doc : Type)
  | start
  | following (rx : ℕ)
  | woken
  | leading (tx : ℕ)
  | resolving (tx : ℕ)
  | inserting (tx : ℕ) (doc : Doc)
  | releasing (tx : ℕ) (result : Option Doc)
  | dropping (tx : ℕ) (result : Option Doc)
  | done (result : Option Doc)
  | cancelled

namespace Stage

variable {Doc : Type}

/-- The channel whose sender the caller holds. -/
def holds : Stage Doc → Option ℕ
  | leading tx | resolving tx | inserting tx _ | releasing tx _ | dropping tx _ => some tx
  | start | following _ | woken | done _ | cancelled => none

/-- The channel of the entry that the caller has to take out. -/
def leads : Stage Doc → Option ℕ
  | leading tx | resolving tx | inserting tx _ | releasing tx _ => some tx
  | start | following _ | woken | dropping _ _ | done _ | cancelled => none

/-- The document the caller has. -/
def doc? : Stage Doc → Option Doc
  | inserting _ doc => some doc
  | releasing _ result | dropping _ result | done result => result
  | start | following _ | woken | leading _ | resolving _ | cancelled => none

end Stage

/-- A task inside `resolve`, and how far it is. -/
structure Caller (K Doc : Type) where
  hash : K
  stage : Stage Doc

/-! ## The client -/

/-- The client that the callers share; `produced` is what was resolved or put into the cache so far. -/
structure SingleFlight (K Doc : Type) where
  cache : K → Option Doc
  inflight : K → Option ℕ
  senders : ℕ → Bool
  nextChannel : ℕ
  callers : ℕ → Option (Caller K Doc)
  produced : List (K × Doc)

namespace SingleFlight

/-- The steps of the callers, one for each await point. -/
inductive Event (K Doc : Type)
  | call (c : ℕ) (hash : K)
  | lock (c : ℕ)
  | wake (c : ℕ)
  | read (c : ℕ)
  | resolved (c : ℕ) (result : Option Doc)
  | insert (c : ℕ)
  | remove (c : ℕ)
  | release (c : ℕ)
  | cancel (c : ℕ)
  | put (hash : K) (doc : Doc)
  | evict (hash : K)

variable {K Doc : Type}

def empty : SingleFlight K Doc := ⟨fun _ => none, fun _ => none, fun _ => false, 0, fun _ => none, []⟩

def setStage (s : SingleFlight K Doc) (c : ℕ) (hash : K) (stage : Stage Doc) : SingleFlight K Doc :=
  { s with callers := Function.update s.callers c (some ⟨hash, stage⟩) }

/-- The hash and the channel of which `c` holds the sender. -/
def holds (s : SingleFlight K Doc) (c : ℕ) : Option (K × ℕ) :=
  (s.callers c).bind fun caller => caller.stage.holds.map (caller.hash, ·)

/-- The hash and the channel of the entry that `c` is to take out. -/
def leads (s : SingleFlight K Doc) (c : ℕ) : Option (K × ℕ) :=
  (s.callers c).bind fun caller => caller.stage.leads.map (caller.hash, ·)

variable {s s' : SingleFlight K Doc} {c d tx : ℕ} {hash : K} {stage old : Stage Doc}

theorem callers_setStage_self (s : SingleFlight K Doc) (c : ℕ) (hash : K) (stage : Stage Doc) :
    (s.setStage c hash stage).callers c = some ⟨hash, stage⟩ := update_self ..

theorem callers_setStage_of_ne (s : SingleFlight K Doc) (hash : K) (stage : Stage Doc) (h : d ≠ c) :
    (s.setStage c hash stage).callers d = s.callers d := update_of_ne h ..

theorem holds_setStage (s : SingleFlight K Doc) (c : ℕ) (hash : K) (stage : Stage Doc) (d : ℕ) :
    (s.setStage c hash stage).holds d = if d = c then stage.holds.map (hash, ·) else s.holds d := by
  unfold holds
  split_ifs with h
  · rw [h, callers_setStage_self]
    rfl
  · rw [callers_setStage_of_ne s hash stage h]

theorem leads_setStage (s : SingleFlight K Doc) (c : ℕ) (hash : K) (stage : Stage Doc) (d : ℕ) :
    (s.setStage c hash stage).leads d = if d = c then stage.leads.map (hash, ·) else s.leads d := by
  unfold leads
  split_ifs with h
  · rw [h, callers_setStage_self]
    rfl
  · rw [callers_setStage_of_ne s hash stage h]

theorem holds_of_callers (h : s.callers c = some ⟨hash, stage⟩) : s.holds c = stage.holds.map (hash, ·) := by
  rw [holds, h]
  rfl

theorem leads_of_callers (h : s.callers c = some ⟨hash, stage⟩) : s.leads c = stage.leads.map (hash, ·) := by
  rw [leads, h]
  rfl

theorem holds_of_leads (h : s.leads c = some (hash, tx)) : s.holds c = some (hash, tx) := by
  unfold leads at h
  obtain ⟨⟨hash', stage⟩, hc, hstage⟩ := bind_eq_some_iff.1 h
  obtain ⟨tx', htx, heq⟩ := map_eq_some_iff.1 hstage
  cases heq
  rw [holds_of_callers hc]
  cases stage <;> first | exact congrArg (Option.map _) htx | cases htx

theorem holds_move (h : s.callers c = some ⟨hash, old⟩) (hsame : stage.holds = old.holds) :
    (s.setStage c hash stage).holds = s.holds := by
  funext d
  rw [holds_setStage]
  split_ifs with hd
  · rw [hd, holds_of_callers h, hsame]
  · rfl

theorem leads_move (h : s.callers c = some ⟨hash, old⟩) (hsame : stage.leads = old.leads) :
    (s.setStage c hash stage).leads = s.leads := by
  funext d
  rw [leads_setStage]
  split_ifs with hd
  · rw [hd, leads_of_callers h, hsame]
  · rfl

/-! ## Channels -/

/-- A sender is in one caller's hands, and a leader's entry carries its own channel. -/
structure Channels (s : SingleFlight K Doc) : Prop where
  alive : ∀ c hash tx, s.holds c = some (hash, tx) → s.senders tx = true
  once : ∀ c d hash hash' tx, s.holds c = some (hash, tx) → s.holds d = some (hash', tx) → c = d
  held : ∀ tx, s.senders tx = true → tx < s.nextChannel ∧ ∃ c hash, s.holds c = some (hash, tx)
  entry : ∀ c hash tx, s.leads c = some (hash, tx) → s.inflight hash = some tx

/-- Every entry has its leader. -/
def Led (s : SingleFlight K Doc) : Prop := ∀ hash tx, s.inflight hash = some tx → ∃ c, s.leads c = some (hash, tx)

theorem channels_empty : (empty : SingleFlight K Doc).Channels := by
  refine ⟨?_, ?_, ?_, ?_⟩
  · exact fun c hash tx h => absurd h (by simp [holds, empty])
  · exact fun c d hash hash' tx h => absurd h (by simp [holds, empty])
  · exact fun tx h => absurd h (by simp [empty])
  · exact fun c hash tx h => absurd h (by simp [leads, empty])

theorem Channels.congr (h : s.Channels) (hholds : s'.holds = s.holds) (hleads : s'.leads = s.leads)
    (hsenders : s'.senders = s.senders) (hnext : s'.nextChannel = s.nextChannel)
      (hinflight : s'.inflight = s.inflight) :
    s'.Channels := by
  constructor
  · rw [hholds, hsenders]
    exact h.alive
  · rw [hholds]
    exact h.once
  · rw [hholds, hsenders, hnext]
    exact h.held
  · rw [hleads, hinflight]
    exact h.entry

theorem Led.congr (h : s.Led) (hleads : s'.leads = s.leads) (hinflight : s'.inflight = s.inflight) : s'.Led := by
  unfold Led
  rw [hleads, hinflight]
  exact h

/-! ## Documents -/

/-- What is in the cache or in a caller's hands was resolved or put in for its hash. -/
structure Documents (s : SingleFlight K Doc) : Prop where
  cached : ∀ hash doc, s.cache hash = some doc → (hash, doc) ∈ s.produced
  carried : ∀ c hash stage doc, s.callers c = some ⟨hash, stage⟩ → stage.doc? = some doc → (hash, doc) ∈ s.produced

theorem documents_empty : (empty : SingleFlight K Doc).Documents :=
  ⟨fun _ _ h => absurd h (by simp [empty]), fun _ _ _ _ h => absurd h (by simp [empty])⟩

theorem Documents.produce (h : s.Documents) (hash : K) (doc : Doc) :
    ({ s with produced := (hash, doc) :: s.produced } : SingleFlight K Doc).Documents :=
  ⟨fun hash' doc' hd => mem_cons_of_mem _ (h.cached hash' doc' hd),
    fun c hash' stage doc' hc hd => mem_cons_of_mem _ (h.carried c hash' stage doc' hc hd)⟩

theorem Documents.congr (h : s.Documents) (hcache : s'.cache = s.cache) (hcallers : s'.callers = s.callers)
    (hproduced : s'.produced = s.produced) : s'.Documents :=
  ⟨by rw [hcache, hproduced]; exact h.cached, by rw [hcallers, hproduced]; exact h.carried⟩

variable [DecidableEq K]

/-! ## Steps -/

/-- One step of a caller or of the cache; `none` where it cannot happen. -/
def step (s : SingleFlight K Doc) : Event K Doc → Option (SingleFlight K Doc)
  | .call c hash => if (s.callers c).isNone then some (s.setStage c hash .start) else none
  | .lock c =>
    match s.callers c with
    | some ⟨hash, .start⟩ =>
      match s.inflight hash with
      | some rx => some (s.setStage c hash (.following rx))
      | none =>
        some { s.setStage c hash (.leading s.nextChannel) with
          inflight := Function.update s.inflight hash (some s.nextChannel)
          senders := Function.update s.senders s.nextChannel true
          nextChannel := s.nextChannel + 1 }
    | _ => none
  | .wake c =>
    match s.callers c with
    | some ⟨hash, .following rx⟩ => if s.senders rx then none else some (s.setStage c hash .woken)
    | _ => none
  | .read c =>
    match s.callers c with
    | some ⟨hash, .woken⟩ =>
      match s.cache hash with
      | some doc => some (s.setStage c hash (.done (some doc)))
      | none => some (s.setStage c hash .start)
    | some ⟨hash, .leading tx⟩ =>
      match s.cache hash with
      | some doc => some (s.setStage c hash (.releasing tx (some doc)))
      | none => some (s.setStage c hash (.resolving tx))
    | _ => none
  | .resolved c result =>
    match s.callers c with
    | some ⟨hash, .resolving tx⟩ =>
      match result with
      | some doc => some { s.setStage c hash (.inserting tx doc) with produced := (hash, doc) :: s.produced }
      | none => some (s.setStage c hash (.releasing tx none))
    | _ => none
  | .insert c =>
    match s.callers c with
    | some ⟨hash, .inserting tx doc⟩ =>
      some { s.setStage c hash (.releasing tx (some doc)) with cache := Function.update s.cache hash (some doc) }
    | _ => none
  | .remove c =>
    match s.callers c with
    | some ⟨hash, .releasing tx result⟩ =>
      some { s.setStage c hash (.dropping tx result) with inflight := Function.update s.inflight hash none }
    | _ => none
  | .release c =>
    match s.callers c with
    | some ⟨hash, .dropping tx result⟩ =>
      some { s.setStage c hash (.done result) with senders := Function.update s.senders tx false }
    | _ => none
  -- between the removal of the entry and the return there is no await, so nothing is dropped there
  | .cancel c =>
    match s.callers c with
    | some ⟨hash, .start⟩ | some ⟨hash, .following _⟩ | some ⟨hash, .woken⟩ => some (s.setStage c hash .cancelled)
    | some ⟨hash, .leading tx⟩ | some ⟨hash, .resolving tx⟩ | some ⟨hash, .inserting tx _⟩ =>
      some { s.setStage c hash .cancelled with senders := Function.update s.senders tx false }
    | _ => none
  | .put hash doc =>
    some { s with cache := Function.update s.cache hash (some doc), produced := (hash, doc) :: s.produced }
  | .evict hash => some { s with cache := Function.update s.cache hash none }

/-- The state after a run, where every event of it can happen. -/
def run (s : SingleFlight K Doc) : List (Event K Doc) → Option (SingleFlight K Doc)
  | [] => some s
  | e :: es => (s.step e).bind fun s' => s'.run es

/-! ## What is asked for -/

/-- `c` is in `resolve_once` for the hash. -/
def Resolves (s : SingleFlight K Doc) (c : ℕ) (hash : K) : Prop := ∃ tx, s.callers c = some ⟨hash, .resolving tx⟩

/-- A step of a caller that is there, where a resolution finds what it is to find. -/
def Continues (r : ℕ → Option Doc) : Event K Doc → Prop
  | .lock _ | .wake _ | .read _ | .insert _ | .remove _ | .release _ => True
  | .resolved c result => result = r c
  | .call _ _ | .cancel _ | .put _ _ | .evict _ => False

/-- The second state is reached by the callers that are there. -/
def Runs (r : ℕ → Option Doc) (s s' : SingleFlight K Doc) : Prop :=
  ∃ es, (∀ e ∈ es, Continues r e) ∧ s.run es = some s'

def Returned (s : SingleFlight K Doc) (c : ℕ) : Prop := ∃ hash result, s.callers c = some ⟨hash, .done result⟩

/-- Whatever the resolutions find, the callers that are there can go on until `c` has returned. -/
def CanReturn (s : SingleFlight K Doc) (c : ℕ) : Prop := ∀ r, ∃ s', Runs r s s' ∧ s'.Returned c

/-- One resolution at a time for a hash, an entry only while its leader is there, nobody stuck, and no document that
was not resolved or put in for the hash. -/
structure Sound (s : SingleFlight K Doc) : Prop where
  single : ∀ c d hash, s.Resolves c hash → s.Resolves d hash → c = d
  led : ∀ hash tx, s.inflight hash = some tx → ∃ c, s.leads c = some (hash, tx)
  returns : ∀ c hash stage, s.callers c = some ⟨hash, stage⟩ → stage ≠ .cancelled → s.CanReturn c
  served : ∀ c hash doc, s.callers c = some ⟨hash, .done (some doc)⟩ → (hash, doc) ∈ s.produced

/-! ## What a step does -/

/-- The steps that can happen, with what they ask for and what they leave. -/
inductive Stepped (s : SingleFlight K Doc) : Event K Doc → SingleFlight K Doc → Prop
  | call {c : ℕ} {hash : K} (h : s.callers c = none) : Stepped s (.call c hash) (s.setStage c hash .start)
  | follow {c rx : ℕ} {hash : K} (h : s.callers c = some ⟨hash, .start⟩) (hentry : s.inflight hash = some rx) :
    Stepped s (.lock c) (s.setStage c hash (.following rx))
  | lead {c : ℕ} {hash : K} (h : s.callers c = some ⟨hash, .start⟩) (hentry : s.inflight hash = none) :
    Stepped s (.lock c) { s.setStage c hash (.leading s.nextChannel) with
      inflight := Function.update s.inflight hash (some s.nextChannel)
      senders := Function.update s.senders s.nextChannel true
      nextChannel := s.nextChannel + 1 }
  | wake {c rx : ℕ} {hash : K} (h : s.callers c = some ⟨hash, .following rx⟩) (hclosed : s.senders rx = false) :
    Stepped s (.wake c) (s.setStage c hash .woken)
  | hit {c : ℕ} {hash : K} {doc : Doc} (h : s.callers c = some ⟨hash, .woken⟩) (hcache : s.cache hash = some doc) :
    Stepped s (.read c) (s.setStage c hash (.done (some doc)))
  | miss {c : ℕ} {hash : K} (h : s.callers c = some ⟨hash, .woken⟩) (hcache : s.cache hash = none) :
    Stepped s (.read c) (s.setStage c hash .start)
  | leadHit {c tx : ℕ} {hash : K} {doc : Doc} (h : s.callers c = some ⟨hash, .leading tx⟩)
      (hcache : s.cache hash = some doc) :
    Stepped s (.read c) (s.setStage c hash (.releasing tx (some doc)))
  | leadMiss {c tx : ℕ} {hash : K} (h : s.callers c = some ⟨hash, .leading tx⟩) (hcache : s.cache hash = none) :
    Stepped s (.read c) (s.setStage c hash (.resolving tx))
  | found {c tx : ℕ} {hash : K} {doc : Doc} (h : s.callers c = some ⟨hash, .resolving tx⟩) :
    Stepped s (.resolved c (some doc))
      { s.setStage c hash (.inserting tx doc) with produced := (hash, doc) :: s.produced }
  | failed {c tx : ℕ} {hash : K} (h : s.callers c = some ⟨hash, .resolving tx⟩) :
    Stepped s (.resolved c none) (s.setStage c hash (.releasing tx none))
  | insert {c tx : ℕ} {hash : K} {doc : Doc} (h : s.callers c = some ⟨hash, .inserting tx doc⟩) :
    Stepped s (.insert c) { s.setStage c hash (.releasing tx (some doc)) with
      cache := Function.update s.cache hash (some doc) }
  | remove {c tx : ℕ} {hash : K} {result : Option Doc} (h : s.callers c = some ⟨hash, .releasing tx result⟩) :
    Stepped s (.remove c) { s.setStage c hash (.dropping tx result) with
      inflight := Function.update s.inflight hash none }
  | release {c tx : ℕ} {hash : K} {result : Option Doc} (h : s.callers c = some ⟨hash, .dropping tx result⟩) :
    Stepped s (.release c) { s.setStage c hash (.done result) with senders := Function.update s.senders tx false }
  | cancel {c : ℕ} {hash : K} {stage : Stage Doc} (h : s.callers c = some ⟨hash, stage⟩)
      (hfree : stage.holds = none) :
    Stepped s (.cancel c) (s.setStage c hash .cancelled)
  | cancelLeader {c tx : ℕ} {hash : K} {stage : Stage Doc} (h : s.callers c = some ⟨hash, stage⟩)
      (hleads : stage.leads = some tx) :
    Stepped s (.cancel c) { s.setStage c hash .cancelled with senders := Function.update s.senders tx false }
  | put {hash : K} {doc : Doc} :
    Stepped s (.put hash doc)
      { s with cache := Function.update s.cache hash (some doc), produced := (hash, doc) :: s.produced }
  | evict {hash : K} : Stepped s (.evict hash) { s with cache := Function.update s.cache hash none }

variable {e : Event K Doc}

/-- What a step can do, one case for each way an event can go. -/
theorem stepped_of_step (h : s.step e = some s') : Stepped s e s' := by
  cases e with
  | call c hash =>
    simp only [step] at h
    split_ifs at h with hnone
    cases h
    exact .call (isNone_iff_eq_none.1 hnone)
  | lock c =>
    simp only [step] at h
    split at h
    · next hash hc =>
      split at h
      · next rx hentry => exact some.inj h ▸ .follow hc hentry
      · next hentry => exact some.inj h ▸ .lead hc hentry
    · cases h
  | wake c =>
    simp only [step] at h
    split at h
    · next hash rx hc =>
      split_ifs at h with hopen
      exact some.inj h ▸ .wake hc (Bool.not_eq_true _ ▸ hopen)
    · cases h
  | read c =>
    simp only [step] at h
    split at h
    · next hash hc =>
      split at h
      · next doc hcache => exact some.inj h ▸ .hit hc hcache
      · next hcache => exact some.inj h ▸ .miss hc hcache
    · next hash tx hc =>
      split at h
      · next doc hcache => exact some.inj h ▸ .leadHit hc hcache
      · next hcache => exact some.inj h ▸ .leadMiss hc hcache
    · cases h
  | resolved c result =>
    simp only [step] at h
    split at h
    · next hash tx hc =>
      cases result with
      | some doc => exact some.inj h ▸ .found hc
      | none => exact some.inj h ▸ .failed hc
    · cases h
  | insert c =>
    simp only [step] at h
    split at h
    · next hash tx doc hc => exact some.inj h ▸ .insert hc
    · cases h
  | remove c =>
    simp only [step] at h
    split at h
    · next hash tx result hc => exact some.inj h ▸ .remove hc
    · cases h
  | release c =>
    simp only [step] at h
    split at h
    · next hash tx result hc => exact some.inj h ▸ .release hc
    · cases h
  | cancel c =>
    simp only [step] at h
    split at h
    · next hash hc => exact some.inj h ▸ .cancel hc rfl
    · next hash rx hc => exact some.inj h ▸ .cancel hc rfl
    · next hash hc => exact some.inj h ▸ .cancel hc rfl
    · next hash tx hc => exact some.inj h ▸ .cancelLeader hc rfl
    · next hash tx hc => exact some.inj h ▸ .cancelLeader hc rfl
    · next hash tx doc hc => exact some.inj h ▸ .cancelLeader hc rfl
    · cases h
  | put hash doc => exact some.inj h ▸ .put
  | evict hash => exact some.inj h ▸ .evict

/-! ## Channels over a step -/

theorem channels_kept {e : Event K Doc} (h : Stepped s e s') :
    (∃ c hash, s.callers c = some ⟨hash, .start⟩ ∧ s.inflight hash = none ∧
      s' = { s.setStage c hash (.leading s.nextChannel) with
        inflight := update s.inflight hash (some s.nextChannel)
        senders := update s.senders s.nextChannel true
        nextChannel := s.nextChannel + 1 }) ∨
    (∃ c hash tx result, s.callers c = some ⟨hash, .releasing tx result⟩ ∧
      s' = { s.setStage c hash (.dropping tx result) with inflight := update s.inflight hash none }) ∨
    (∃ c hash stage last tx, s.callers c = some ⟨hash, stage⟩ ∧ stage.holds = some tx ∧ last.holds = none ∧
      (stage.leads = none ∨ e = .cancel c ∧ stage.leads = some tx) ∧
      s' = { s.setStage c hash last with senders := update s.senders tx false }) ∨
    (s'.holds = s.holds ∧ s'.leads = s.leads ∧ s'.senders = s.senders ∧ s'.nextChannel = s.nextChannel ∧
      s'.inflight = s.inflight) := by
  cases h with
  | lead hc hentry => exact .inl ⟨_, _, hc, hentry, rfl⟩
  | remove hc => exact .inr (.inl ⟨_, _, _, _, hc, rfl⟩)
  | release hc => exact .inr (.inr (.inl ⟨_, _, _, _, _, hc, rfl, rfl, .inl rfl, rfl⟩))
  | cancelLeader hc hleads =>
    refine .inr (.inr (.inl ⟨_, _, _, .cancelled, _, hc, ?_, rfl, .inr ⟨rfl, hleads⟩, rfl⟩))
    have hholds := holds_of_leads (leads_of_callers hc ▸ congrArg (Option.map _) hleads)
    rw [holds_of_callers hc] at hholds
    obtain ⟨tx, htx, heq⟩ := map_eq_some_iff.1 hholds
    rw [htx, (Prod.mk.inj heq).2]
  | @call c hash hc =>
    refine .inr (.inr (.inr ⟨?_, ?_, rfl, rfl, rfl⟩))
    · funext d
      rw [holds_setStage]
      split_ifs with hd
      · rw [hd, holds, hc]
        rfl
      · rfl
    · funext d
      rw [leads_setStage]
      split_ifs with hd
      · rw [hd, leads, hc]
        rfl
      · rfl
  | follow hc | wake hc | hit hc | miss hc | leadHit hc | leadMiss hc | failed hc =>
    exact .inr (.inr (.inr ⟨holds_move hc rfl, leads_move hc rfl, rfl, rfl, rfl⟩))
  | found hc | insert hc => exact .inr (.inr (.inr ⟨holds_move hc rfl, leads_move hc rfl, rfl, rfl, rfl⟩))
  | @cancel c hash stage hc hfree =>
    have hleads : stage.leads = none := by cases stage <;> first | rfl | cases hfree
    exact .inr (.inr (.inr ⟨holds_move hc hfree.symm, leads_move hc hleads.symm, rfl, rfl, rfl⟩))
  | put | evict => exact .inr (.inr (.inr ⟨rfl, rfl, rfl, rfl, rfl⟩))

/-- The channel of a new leader is new. -/
theorem Channels.lead (h : s.Channels) {c : ℕ} {hash : K} (hc : s.callers c = some ⟨hash, .start⟩)
    (hentry : s.inflight hash = none) : ({ s.setStage c hash (.leading s.nextChannel) with
      inflight := update s.inflight hash (some s.nextChannel)
      senders := update s.senders s.nextChannel true
      nextChannel := s.nextChannel + 1 } : SingleFlight K Doc).Channels := by
  have hnew : ∀ d hash', s.holds d ≠ some (hash', s.nextChannel) := fun d hash' hd =>
    Nat.lt_irrefl _ (h.held _ (h.alive _ _ _ hd)).1
  have hholds := holds_setStage s c hash (.leading s.nextChannel)
  have hleads := leads_setStage s c hash (.leading s.nextChannel)
  refine ⟨fun d hash' tx hd => ?_, fun d d' hash' hash'' tx hd hd' => ?_, fun tx htx => ?_, fun d hash' tx hd => ?_⟩
  · have hmoved := (hholds d).symm.trans hd
    show update s.senders s.nextChannel true tx = true
    split_ifs at hmoved
    · cases hmoved
      rw [update_self]
    · have hne : tx ≠ s.nextChannel := by
        rintro rfl
        exact hnew d hash' hmoved
      rw [update_of_ne hne, h.alive _ _ _ hmoved]
  · have hmoved := (hholds d).symm.trans hd
    have hmoved' := (hholds d').symm.trans hd'
    split_ifs at hmoved hmoved' with hdc hdc' hdc'
    · rw [hdc, hdc']
    · cases hmoved
      exact absurd hmoved' (hnew _ _)
    · cases hmoved'
      exact absurd hmoved (hnew _ _)
    · exact h.once _ _ _ _ _ hmoved hmoved'
  · show tx < s.nextChannel + 1 ∧ _
    by_cases heq : tx = s.nextChannel
    · exact ⟨by omega, c, hash, by rw [heq]; exact (hholds c).trans (if_pos rfl)⟩
    · have hold : update s.senders s.nextChannel true tx = true := htx
      rw [update_of_ne heq] at hold
      obtain ⟨hlt, d, hash', hd⟩ := h.held tx hold
      have hdc : d ≠ c := by
        rintro rfl
        rw [holds_of_callers hc] at hd
        cases hd
      exact ⟨by omega, d, hash', ((hholds d).trans (if_neg hdc)).trans hd⟩
  · have hmoved := (hleads d).symm.trans hd
    show update s.inflight hash (some s.nextChannel) hash' = some tx
    split_ifs at hmoved
    · cases hmoved
      rw [update_self]
    · have hinflight := h.entry _ _ _ hmoved
      have hne : hash' ≠ hash := by
        rintro rfl
        rw [hentry] at hinflight
        cases hinflight
      rw [update_of_ne hne, hinflight]

/-- The entry is taken out while its channel is still held. -/
theorem Channels.remove (h : s.Channels) {c tx : ℕ} {hash : K} {result : Option Doc}
    (hc : s.callers c = some ⟨hash, .releasing tx result⟩) :
    ({ s.setStage c hash (.dropping tx result) with inflight := update s.inflight hash none } :
      SingleFlight K Doc).Channels := by
  have hholds : (s.setStage c hash (.dropping tx result)).holds = s.holds := holds_move hc rfl
  refine ⟨fun d hash' tx' hd => ?_, fun d d' hash' hash'' tx' hd hd' => ?_, fun tx' htx => ?_,
    fun d hash' tx' hd => ?_⟩
  · exact h.alive d hash' tx' (hholds ▸ hd)
  · exact h.once d d' hash' hash'' tx' (hholds ▸ hd) (hholds ▸ hd')
  · obtain ⟨hlt, d, hash', hd⟩ := h.held tx' htx
    exact ⟨hlt, d, hash', (congrFun hholds d).trans hd⟩
  · have hmoved : (s.setStage c hash (.dropping tx result)).leads d = some (hash', tx') := hd
    rw [leads_setStage] at hmoved
    split_ifs at hmoved with hdc
    · cases hmoved
    · have hinflight := h.entry _ _ _ hmoved
      have hown := h.entry _ _ _ (leads_of_callers hc)
      have hne : hash' ≠ hash := by
        rintro rfl
        cases hown.symm.trans hinflight
        exact hdc (h.once _ _ _ _ _ (holds_of_leads hmoved) (holds_of_leads (leads_of_callers hc)))
      show update s.inflight hash none hash' = some tx'
      rw [update_of_ne hne, hinflight]

omit [DecidableEq K] in
/-- The one that holds the channel closes it. -/
theorem Channels.close (h : s.Channels) {c tx : ℕ} {hash : K} {stage last : Stage Doc}
    (hc : s.callers c = some ⟨hash, stage⟩) (hstage : stage.holds = some tx) (hlast : last.holds = none) :
    ({ s.setStage c hash last with senders := update s.senders tx false } : SingleFlight K Doc).Channels := by
  have hown : s.holds c = some (hash, tx) := by rw [holds_of_callers hc, hstage]; rfl
  have hholds : ∀ d hash' tx', (s.setStage c hash last).holds d = some (hash', tx') →
      d ≠ c ∧ s.holds d = some (hash', tx') := by
    intro d hash' tx' hd
    rw [holds_setStage] at hd
    split_ifs at hd with hdc
    · rw [hlast] at hd
      cases hd
    · exact ⟨hdc, hd⟩
  have hlastLeads : last.leads = none := by cases last <;> first | rfl | cases hlast
  refine ⟨fun d hash' tx' hd => ?_, fun d d' hash' hash'' tx' hd hd' => ?_, fun tx' htx => ?_,
    fun d hash' tx' hd => ?_⟩
  · obtain ⟨hdc, hold⟩ := hholds d hash' tx' hd
    have hne : tx' ≠ tx := by
      rintro rfl
      exact hdc (h.once _ _ _ _ _ hold hown)
    show update s.senders tx false tx' = true
    rw [update_of_ne hne, h.alive _ _ _ hold]
  · exact h.once _ _ _ _ _ (hholds _ _ _ hd).2 (hholds _ _ _ hd').2
  · have hupdate : update s.senders tx false tx' = true := htx
    have hne : tx' ≠ tx := by
      rintro rfl
      rw [update_self] at hupdate
      cases hupdate
    rw [update_of_ne hne] at hupdate
    obtain ⟨hlt, d, hash', hd⟩ := h.held tx' hupdate
    have hdc : d ≠ c := by
      rintro rfl
      cases hown.symm.trans hd
      exact hne rfl
    exact ⟨hlt, d, hash', ((holds_setStage s c hash last d).trans (if_neg hdc)).trans hd⟩
  · have hmoved : (s.setStage c hash last).leads d = some (hash', tx') := hd
    rw [leads_setStage] at hmoved
    split_ifs at hmoved with hdc
    · rw [hlastLeads] at hmoved
      cases hmoved
    · exact h.entry _ _ _ hmoved

/-- Every step keeps a sender for each entry of the map. -/
theorem Channels.step (h : s.Channels) (hstep : s.step e = some s') : s'.Channels := by
  obtain ⟨c, hash, hc, hentry, rfl⟩ | ⟨c, hash, tx, result, hc, rfl⟩ |
    ⟨c, hash, stage, last, tx, hc, hstage, hlast, hleads, rfl⟩ | ⟨hholds, hleads, hsenders, hnext, hinflight⟩ :=
    channels_kept (stepped_of_step hstep)
  · exact h.lead hc hentry
  · exact h.remove hc
  · exact h.close hc hstage hlast
  · exact h.congr hholds hleads hsenders hnext hinflight

/-- Unless a leader is cancelled, every entry keeps a leader. -/
theorem Led.step (h : s.Led) (hstep : s.step e = some s') (hcancel : ∀ c, e = .cancel c → s.leads c = none) :
    s'.Led := by
  obtain ⟨c, hash, hc, hentry, rfl⟩ | ⟨c, hash, tx, result, hc, rfl⟩ |
    ⟨c, hash, stage, last, tx, hc, hstage, hlast, hleads, rfl⟩ | ⟨-, hleads, -, -, hinflight⟩ :=
    channels_kept (stepped_of_step hstep)
  · intro hash' tx hinflight
    have hupdate : update s.inflight hash (some s.nextChannel) hash' = some tx := hinflight
    by_cases hhash : hash' = hash
    · rw [hhash, update_self] at hupdate
      refine ⟨c, ?_⟩
      rw [hhash, ← some.inj hupdate]
      exact (leads_setStage s c hash (.leading s.nextChannel) c).trans (if_pos rfl)
    · rw [update_of_ne hhash] at hupdate
      obtain ⟨d, hd⟩ := h hash' tx hupdate
      have hdc : d ≠ c := by
        rintro rfl
        rw [leads_of_callers hc] at hd
        cases hd
      exact ⟨d, ((leads_setStage s c hash (.leading s.nextChannel) d).trans (if_neg hdc)).trans hd⟩
  · intro hash' tx' hinflight
    have hupdate : update s.inflight hash none hash' = some tx' := hinflight
    have hhash : hash' ≠ hash := by
      rintro rfl
      rw [update_self] at hupdate
      cases hupdate
    rw [update_of_ne hhash] at hupdate
    obtain ⟨d, hd⟩ := h hash' tx' hupdate
    have hdc : d ≠ c := by
      rintro rfl
      rw [leads_of_callers hc] at hd
      exact hhash (Prod.mk.inj (some.inj hd)).1.symm
    exact ⟨d, ((leads_setStage s c hash (.dropping tx result) d).trans (if_neg hdc)).trans hd⟩
  · have hnone : stage.leads = none := by
      rcases hleads with hnone | ⟨rfl, hsome⟩
      · exact hnone
      · have hnot := hcancel c rfl
        rw [leads_of_callers hc, hsome] at hnot
        cases hnot
    have hlastLeads : last.leads = none := by cases last <;> first | rfl | cases hlast
    have hsame : (s.setStage c hash last).leads = s.leads := leads_move hc (hlastLeads.trans hnone.symm)
    exact h.congr hsame rfl
  · exact h.congr hleads hinflight

/-! ## Documents over a step -/

omit [DecidableEq K] in
theorem Documents.setStage (h : s.Documents) (hdoc : ∀ doc, stage.doc? = some doc → (hash, doc) ∈ s.produced) :
    (s.setStage c hash stage).Documents := by
  refine ⟨h.cached, fun d hash' stage' doc hd hstage => ?_⟩
  by_cases hdc : d = c
  · rw [hdc, callers_setStage_self] at hd
    obtain ⟨rfl, rfl⟩ := Caller.mk.inj (some.inj hd)
    exact hdoc doc hstage
  · rw [callers_setStage_of_ne s hash stage hdc] at hd
    exact h.carried d hash' stage' doc hd hstage

theorem Documents.cache (h : s.Documents) {entry : Option Doc}
    (hdoc : ∀ doc, entry = some doc → (hash, doc) ∈ s.produced) :
    ({ s with cache := update s.cache hash entry } : SingleFlight K Doc).Documents := by
  refine ⟨fun hash' doc hd => ?_, h.carried⟩
  have hupdate : update s.cache hash entry hash' = some doc := hd
  by_cases hhash : hash' = hash
  · rw [hhash, update_self] at hupdate
    exact hhash ▸ hdoc doc hupdate
  · rw [update_of_ne hhash] at hupdate
    exact h.cached hash' doc hupdate

/-- Every step keeps to the documents that were resolved. -/
theorem Documents.step (h : s.Documents) (hstep : s.step e = some s') : s'.Documents := by
  cases stepped_of_step hstep with
  | call | follow | wake | miss | leadMiss | failed | cancel => exact h.setStage nofun
  | hit hc hcache | leadHit hc hcache =>
    exact h.setStage fun doc hdoc => h.cached _ doc (hcache.trans hdoc)
  | @lead c hash =>
    have hmoved : (s.setStage c hash (.leading s.nextChannel)).Documents := h.setStage nofun
    exact hmoved.congr rfl rfl rfl
  | @cancelLeader c tx hash =>
    have hmoved : (s.setStage c hash .cancelled).Documents := h.setStage nofun
    exact hmoved.congr rfl rfl rfl
  | @remove c tx hash result hc =>
    have hmoved : (s.setStage c hash (.dropping tx result)).Documents :=
      h.setStage fun doc hdoc => h.carried c hash _ doc hc hdoc
    exact hmoved.congr rfl rfl rfl
  | @release c tx hash result hc =>
    have hmoved : (s.setStage c hash (.done result)).Documents :=
      h.setStage fun doc hdoc => h.carried c hash _ doc hc hdoc
    exact hmoved.congr rfl rfl rfl
  | @found c tx hash doc hc =>
    have hproduced := h.produce hash doc
    have hmoved : (({ s with produced := (hash, doc) :: s.produced } : SingleFlight K Doc).setStage c hash
        (.inserting tx doc)).Documents :=
      hproduced.setStage fun doc' hdoc => some.inj hdoc ▸ mem_cons_self
    exact hmoved.congr rfl rfl rfl
  | @insert c tx hash doc hc =>
    have hown : ∀ doc', some doc = some doc' → (hash, doc') ∈ s.produced := fun doc' hdoc =>
      h.carried c hash _ doc' hc hdoc
    have hmoved : (s.setStage c hash (.releasing tx (some doc))).Documents := h.setStage hown
    have hcached : ({ s.setStage c hash (.releasing tx (some doc)) with
        cache := update s.cache hash (some doc) } : SingleFlight K Doc).Documents := hmoved.cache hown
    exact hcached
  | @put hash doc =>
    exact (h.produce hash doc).cache fun doc' hdoc => some.inj hdoc ▸ mem_cons_self
  | evict => exact h.cache nofun
/-! ## Going on -/

theorem run_append (es es' : List (Event K Doc)) : s.run (es ++ es') = (s.run es).bind fun s' => s'.run es' := by
  induction es generalizing s with
  | nil => rfl
  | cons e es ih =>
    show (s.step e).bind _ = ((s.step e).bind _).bind _
    rw [bind_assoc]
    exact congrArg _ (funext fun s' => ih)

theorem Runs.refl (r : ℕ → Option Doc) (s : SingleFlight K Doc) : Runs r s s := ⟨[], nofun, rfl⟩

variable {r : ℕ → Option Doc} {t : SingleFlight K Doc}

theorem Runs.trans (h : Runs r s s') (h' : Runs r s' t) : Runs r s t := by
  obtain ⟨es, hes, hrun⟩ := h
  obtain ⟨es', hes', hrun'⟩ := h'
  refine ⟨es ++ es', fun e he => (mem_append.1 he).elim (hes e) (hes' e), ?_⟩
  rw [run_append, hrun]
  exact hrun'

theorem Runs.head (hstep : s.step e = some s') (hcontinues : Continues r e) (h : Runs r s' t) : Runs r s t := by
  obtain ⟨es, hes, hrun⟩ := h
  refine ⟨e :: es, fun e' he' => ?_, by rw [run, hstep]; exact hrun⟩
  rcases mem_cons.1 he' with rfl | he'
  · exact hcontinues
  · exact hes e' he'

theorem Runs.keeps (h : Runs r s s') (hchannels : s.Channels) (hled : s.Led) : s'.Channels ∧ s'.Led := by
  obtain ⟨es, hes, hrun⟩ := h
  induction es generalizing s with
  | nil => exact some.inj hrun ▸ ⟨hchannels, hled⟩
  | cons e es ih =>
    obtain ⟨t, hstep, hrun⟩ := bind_eq_some_iff.1 hrun
    refine ih (hchannels.step hstep) (hled.step hstep ?_) (fun e' he' => hes e' (mem_cons_of_mem e he')) hrun
    rintro c rfl
    exact absurd (hes _ mem_cons_self) id

variable {r : ℕ → Option Doc}

/-- The caller has returned, its channel is closed, and the others are where they were. -/
structure Finished (s s' : SingleFlight K Doc) (c tx : ℕ) : Prop where
  returned : s'.Returned c
  closed : s'.senders tx = false
  others : ∀ d, d ≠ c → s'.callers d = s.callers d

variable {result : Option Doc}

theorem finish_dropping (h : s.callers c = some ⟨hash, .dropping tx result⟩) : ∃ s', Runs r s s' ∧
    Finished s s' c tx ∧ s'.inflight = s.inflight := by
  have hstep : s.step (.release c) =
      some { s.setStage c hash (.done result) with senders := update s.senders tx false } := by
    rw [step, h]
  refine ⟨_, Runs.head hstep trivial (Runs.refl _ _), ⟨⟨hash, result, ?_⟩, update_self .., fun d hd => ?_⟩, rfl⟩
  · exact callers_setStage_self s c hash (.done result)
  · exact callers_setStage_of_ne s hash (.done result) hd

theorem finish_head (hstep : s.step e = some t) (hcontinues : Continues r e)
    (hothers : ∀ d, d ≠ c → t.callers d = s.callers d)
    (h : ∃ s', Runs r t s' ∧ Finished t s' c tx ∧ s'.inflight hash = none) : ∃ s', Runs r s s' ∧
    Finished s s' c tx ∧ s'.inflight hash = none := by
  obtain ⟨s', hruns, hfinished, hinflight⟩ := h
  refine ⟨s', Runs.head hstep hcontinues hruns, ⟨hfinished.returned, hfinished.closed, fun d hd => ?_⟩, hinflight⟩
  rw [hfinished.others d hd, hothers d hd]

theorem finish_releasing (h : s.callers c = some ⟨hash, .releasing tx result⟩) : ∃ s', Runs r s s' ∧
    Finished s s' c tx ∧ s'.inflight hash = none := by
  have hstep : s.step (.remove c) =
      some { s.setStage c hash (.dropping tx result) with inflight := update s.inflight hash none } := by
    rw [step, h]
  refine finish_head hstep trivial (fun d hd => callers_setStage_of_ne s hash _ hd) ?_
  obtain ⟨s', hruns, hfinished, hinflight⟩ := finish_dropping (callers_setStage_self
    { s with inflight := update s.inflight hash none } c hash (.dropping tx result))
  exact ⟨s', hruns, hfinished, by rw [hinflight]; exact update_self ..⟩

theorem finish_inserting {doc : Doc} (h : s.callers c = some ⟨hash, .inserting tx doc⟩) :
    ∃ s', Runs r s s' ∧ Finished s s' c tx ∧ s'.inflight hash = none := by
  have hstep : s.step (.insert c) = some { s.setStage c hash (.releasing tx (some doc)) with
      cache := update s.cache hash (some doc) } := by
    rw [step, h]
  refine finish_head hstep trivial (fun d hd => callers_setStage_of_ne s hash _ hd) ?_
  exact finish_releasing (callers_setStage_self { s with cache := update s.cache hash (some doc) } c hash _)

theorem finish_resolving (h : s.callers c = some ⟨hash, .resolving tx⟩) :
    ∃ s', Runs r s s' ∧ Finished s s' c tx ∧ s'.inflight hash = none := by
  cases hresult : r c with
  | some doc =>
    have hstep : s.step (.resolved c (some doc)) =
        some { s.setStage c hash (.inserting tx doc) with produced := (hash, doc) :: s.produced } := by
      rw [step, h]
    refine finish_head hstep hresult.symm (fun d hd => callers_setStage_of_ne s hash _ hd) ?_
    exact finish_inserting (callers_setStage_self { s with produced := (hash, doc) :: s.produced } c hash _)
  | none =>
    have hstep : s.step (.resolved c none) = some (s.setStage c hash (.releasing tx none)) := by
      rw [step, h]
    refine finish_head hstep hresult.symm (fun d hd => callers_setStage_of_ne s hash _ hd) ?_
    exact finish_releasing (callers_setStage_self s c hash _)

theorem finish_leading (h : s.callers c = some ⟨hash, .leading tx⟩) :
    ∃ s', Runs r s s' ∧ Finished s s' c tx ∧ s'.inflight hash = none := by
  cases hcache : s.cache hash with
  | some doc =>
    have hstep : s.step (.read c) = some (s.setStage c hash (.releasing tx (some doc))) := by
      simp only [step, h, hcache]
    refine finish_head hstep trivial (fun d hd => callers_setStage_of_ne s hash _ hd) ?_
    exact finish_releasing (callers_setStage_self s c hash _)
  | none =>
    have hstep : s.step (.read c) = some (s.setStage c hash (.resolving tx)) := by
      simp only [step, h, hcache]
    refine finish_head hstep trivial (fun d hd => callers_setStage_of_ne s hash _ hd) ?_
    exact finish_resolving (callers_setStage_self s c hash _)

theorem finish_leader (h : s.leads c = some (hash, tx)) :
    ∃ s', Runs r s s' ∧ Finished s s' c tx ∧ s'.inflight hash = none := by
  unfold leads at h
  obtain ⟨⟨hash', stage⟩, hc, hstage⟩ := bind_eq_some_iff.1 h
  obtain ⟨tx', htx, heq⟩ := map_eq_some_iff.1 hstage
  cases heq
  cases stage with
  | leading tx =>
    cases htx
    exact finish_leading hc
  | resolving tx =>
    cases htx
    exact finish_resolving hc
  | inserting tx doc =>
    cases htx
    exact finish_inserting hc
  | releasing tx result =>
    cases htx
    exact finish_releasing hc
  | start | following | woken | dropping | done | cancelled => cases htx

theorem finish_holder (h : s.holds c = some (hash, tx)) : ∃ s', Runs r s s' ∧ Finished s s' c tx := by
  by_cases hleads : s.leads c = some (hash, tx)
  · obtain ⟨s', hruns, hfinished, -⟩ := finish_leader hleads
    exact ⟨s', hruns, hfinished⟩
  · unfold holds at h
    obtain ⟨⟨hash', stage⟩, hc, hstage⟩ := bind_eq_some_iff.1 h
    obtain ⟨tx', htx, heq⟩ := map_eq_some_iff.1 hstage
    cases heq
    rw [leads_of_callers hc] at hleads
    cases stage with
    | dropping tx result =>
      cases htx
      obtain ⟨s', hruns, hfinished, -⟩ := finish_dropping hc
      exact ⟨s', hruns, hfinished⟩
    | leading | resolving | inserting | releasing =>
      cases htx
      exact absurd rfl hleads
    | start | following | woken | done | cancelled => cases htx

theorem returns_of_no_entry (h : s.callers c = some ⟨hash, .start⟩) (hentry : s.inflight hash = none) :
    ∃ s', Runs r s s' ∧ s'.Returned c := by
  have hstep : s.step (.lock c) = some { s.setStage c hash (.leading s.nextChannel) with
      inflight := update s.inflight hash (some s.nextChannel)
      senders := update s.senders s.nextChannel true
      nextChannel := s.nextChannel + 1 } := by
    simp only [step, h, hentry]
  obtain ⟨s', hruns, hfinished, -⟩ := finish_leading (r := r) (callers_setStage_self
    { s with
      inflight := update s.inflight hash (some s.nextChannel)
      senders := update s.senders s.nextChannel true
      nextChannel := s.nextChannel + 1 } c hash (.leading s.nextChannel))
  exact ⟨s', Runs.head hstep trivial hruns, hfinished.returned⟩

theorem wakes {rx : ℕ} (h : s.callers c = some ⟨hash, .following rx⟩) (hclosed : s.senders rx = false) :
    Runs r s (s.setStage c hash .woken) := by
  have hstep : s.step (.wake c) = some (s.setStage c hash .woken) := by simp [step, h, hclosed]
  exact Runs.head hstep trivial (Runs.refl _ _)

theorem reads (h : s.callers c = some ⟨hash, .woken⟩) :
    (∃ s', Runs r s s' ∧ s'.Returned c) ∨ Runs r s (s.setStage c hash .start) := by
  cases hcache : s.cache hash with
  | some doc =>
    have hstep : s.step (.read c) = some (s.setStage c hash (.done (some doc))) := by simp only [step, h, hcache]
    exact .inl ⟨_, Runs.head hstep trivial (Runs.refl _ _), hash, some doc, callers_setStage_self s c hash _⟩
  | none =>
    have hstep : s.step (.read c) = some (s.setStage c hash .start) := by simp only [step, h, hcache]
    exact .inr (Runs.head hstep trivial (Runs.refl _ _))

theorem Runs.returns (h : Runs r s s') (hreturns : ∃ t, Runs r s' t ∧ t.Returned c) :
    ∃ t, Runs r s t ∧ t.Returned c := by
  obtain ⟨t, hruns, hreturned⟩ := hreturns
  exact ⟨t, h.trans hruns, hreturned⟩

/-- A caller that comes to an entry follows its leader to the end, and finds no entry then. -/
theorem returns_start (hled : s.Led) (h : s.callers c = some ⟨hash, .start⟩) :
    ∃ s', Runs r s s' ∧ s'.Returned c := by
  cases hentry : s.inflight hash with
  | none => exact returns_of_no_entry h hentry
  | some rx =>
    obtain ⟨d, hd⟩ := hled hash rx hentry
    have hdc : d ≠ c := by
      rintro rfl
      rw [leads_of_callers h] at hd
      cases hd
    have hstep : s.step (.lock c) = some (s.setStage c hash (.following rx)) := by simp only [step, h, hentry]
    have hleader : (s.setStage c hash (.following rx)).leads d = some (hash, rx) := by
      rw [leads_setStage, if_neg hdc, hd]
    obtain ⟨s₁, hruns₁, hfinished, hnone⟩ := finish_leader (r := r) hleader
    have hfollows : s₁.callers c = some ⟨hash, .following rx⟩ := by
      rw [hfinished.others c (Ne.symm hdc), callers_setStage_self]
    refine (Runs.head hstep trivial hruns₁).returns ((wakes hfollows hfinished.closed).returns ?_)
    rcases reads (r := r) (callers_setStage_self s₁ c hash .woken) with hreturns | hstart
    · exact hreturns
    · exact hstart.returns (returns_of_no_entry (callers_setStage_self _ c hash .start) hnone)

section

variable (hchannels : s.Channels)
include hchannels

theorem returns_woken (hled : s.Led) (h : s.callers c = some ⟨hash, .woken⟩) : ∃ s', Runs r s s' ∧ s'.Returned c := by
  rcases reads (r := r) h with hreturns | hstart
  · exact hreturns
  · exact hstart.returns (returns_start (hstart.keeps hchannels hled).2 (callers_setStage_self s c hash .start))

theorem returns_following (hled : s.Led) {rx : ℕ} (h : s.callers c = some ⟨hash, .following rx⟩) :
    ∃ s', Runs r s s' ∧ s'.Returned c := by
  cases hopen : s.senders rx with
  | false =>
    have hwakes := wakes (r := r) h hopen
    obtain ⟨hchannels₁, hled₁⟩ := hwakes.keeps hchannels hled
    exact hwakes.returns (returns_woken hchannels₁ hled₁ (callers_setStage_self s c hash .woken))
  | true =>
    -- the sender is in somebody's hands, who goes first
    obtain ⟨-, d, hash', hd⟩ := hchannels.held rx hopen
    obtain ⟨s₁, hruns₁, hfinished⟩ := finish_holder (r := r) hd
    have hcd : c ≠ d := by
      rintro rfl
      rw [holds_of_callers h] at hd
      cases hd
    have hwakes := wakes (r := r) ((hfinished.others c hcd).trans h) hfinished.closed
    obtain ⟨hchannels₁, hled₁⟩ := (hruns₁.trans hwakes).keeps hchannels hled
    exact (hruns₁.trans hwakes).returns (returns_woken hchannels₁ hled₁ (callers_setStage_self s₁ c hash .woken))

theorem canReturn (hled : s.Led) (h : s.callers c = some ⟨hash, stage⟩) (hstage : stage ≠ .cancelled) :
    s.CanReturn c := by
  intro r
  cases hholds : stage.holds with
  | some tx =>
    have hc : s.holds c = some (hash, tx) := by rw [holds_of_callers h, hholds]; rfl
    obtain ⟨s', hruns, hfinished⟩ := finish_holder (r := r) hc
    exact ⟨s', hruns, hfinished.returned⟩
  | none =>
    cases stage with
    | start => exact returns_start hled h
    | following rx => exact returns_following hchannels hled h
    | woken => exact returns_woken hchannels hled h
    | done result => exact ⟨s, Runs.refl _ _, hash, result, h⟩
    | cancelled => exact absurd rfl hstage
    | leading | resolving | inserting | releasing | dropping => cases hholds

/-! ## Single flight -/

theorem sound_of (hled : s.Led) (hdocuments : s.Documents) : s.Sound := by
  refine ⟨fun c d hash ⟨tx, hc⟩ ⟨tx', hd⟩ => ?_, hled,
    fun c hash stage h hstage => canReturn hchannels hled h hstage,
    fun c hash doc h => hdocuments.carried c hash _ doc h rfl⟩
  -- both entries are that of the hash, and so both channels are one
  have hentry := hchannels.entry c hash tx (leads_of_callers hc)
  cases hentry.symm.trans (hchannels.entry d hash tx' (leads_of_callers hd))
  exact hchannels.once _ _ _ _ _ (holds_of_callers hc) (holds_of_callers hd)

theorem not_led_of_cancel (h : s.leads c = some (hash, tx)) (hstep : s.step (.cancel c) = some s') : ¬s'.Led := by
  intro hled
  have hcases := stepped_of_step hstep
  have hgone : s'.leads c = none ∧ s'.inflight = s.inflight ∧ ∀ d, d ≠ c → s'.leads d = s.leads d := by
    cases hcases with
    | cancel => exact ⟨(leads_setStage ..).trans (if_pos rfl), rfl,
        fun d hd => (leads_setStage ..).trans (if_neg hd)⟩
    | cancelLeader =>
      exact ⟨(leads_setStage s _ _ _ _).trans (if_pos rfl), rfl,
        fun d hd => (leads_setStage s _ _ _ _).trans (if_neg hd)⟩
  obtain ⟨hnone, hinflight, hothers⟩ := hgone
  obtain ⟨d, hd⟩ := hled hash tx (by rw [hinflight, hchannels.entry c hash tx h])
  by_cases hdc : d = c
  · rw [hdc, hnone] at hd
    cases hd
  · rw [hothers d hdc] at hd
    exact hdc (hchannels.once _ _ _ _ _ (holds_of_leads hd) (holds_of_leads h))

theorem sound_run_iff {es : List (Event K Doc)} (hled : s.Led) (hdocuments : s.Documents)
    (h : s.run es = some s') : (∀ n t, s.run (es.take n) = some t → t.Sound) ↔ ∀ n t c, s.run (es.take n) =
    some t → es[n]? = some (.cancel c) → t.leads c = none := by
  induction es generalizing s with
  | nil =>
    refine iff_of_true (fun n t ht => ?_) (fun n t c _ hc => ?_)
    · rw [take_nil] at ht
      cases ht
      exact sound_of hchannels hled hdocuments
    · rw [getElem?_nil] at hc
      cases hc
  | cons e es ih =>
    obtain ⟨t₁, hstep, hrun⟩ := bind_eq_some_iff.1 h
    have htake : ∀ n, s.run ((e :: es).take (n + 1)) = t₁.run (es.take n) := by
      intro n
      rw [take_succ_cons, run, hstep]
      rfl
    have hzero : t₁.run (es.take 0) = some t₁ := rfl
    have hchannels₁ := hchannels.step hstep
    have hdocuments₁ := hdocuments.step hstep
    constructor
    · intro hall n t c ht hc
      have hled₁ : t₁.Led := (hall 1 t₁ ((htake 0).trans hzero)).led
      cases n with
      | zero =>
        cases ht
        cases hc
        cases hleads : s.leads c with
        | none => rfl
        | some entry => exact absurd hled₁ (not_led_of_cancel hchannels hleads hstep)
      | succ n =>
        rw [htake] at ht
        exact (ih hchannels₁ hled₁ hdocuments₁ hrun).1
          (fun m t ht => hall (m + 1) t ((htake m).trans ht)) n t c ht hc
    · intro hkept n t ht
      have hled₁ : t₁.Led := hled.step hstep fun c he => hkept 0 s c rfl (congrArg some he)
      cases n with
      | zero =>
        cases ht
        exact sound_of hchannels hled hdocuments
      | succ n =>
        rw [htake] at ht
        exact (ih hchannels₁ hled₁ hdocuments₁ hrun).2
          (fun m t c ht hc => hkept (m + 1) t c ((htake m).trans ht) hc) n t ht

end

/-- **Single flight** is sound in every state of a run exactly where no future is dropped of a caller that has
an entry in the map. -/
theorem singleFlight_sound_iff {es : List (Event K Doc)} (h : (empty : SingleFlight K Doc).run es = some s) :
    (∀ n t, (empty : SingleFlight K Doc).run (es.take n) = some t → t.Sound) ↔
      ∀ n t c, (empty : SingleFlight K Doc).run (es.take n) = some t → es[n]? = some (.cancel c) → t.leads c =
        none :=
  sound_run_iff channels_empty (fun _ _ h => absurd h (by simp [empty])) documents_empty h

/-- A leader resolves for itself and a follower. -/
def followed : List (Event ℕ ℕ) :=
  [.call 0 5, .call 1 5, .lock 0, .lock 1, .read 0, .resolved 0 (some 7), .insert 0, .remove 0, .release 0,
    .wake 1, .read 1]

theorem singleFlight_sound_followed :
    ((empty : SingleFlight ℕ ℕ).run followed).isSome = true ∧
      ∀ n t, (empty : SingleFlight ℕ ℕ).run (followed.take n) = some t → t.Sound := by
  have hrun : ((empty : SingleFlight ℕ ℕ).run followed).isSome = true := by decide
  obtain ⟨s, hs⟩ := isSome_iff_exists.1 hrun
  refine ⟨hrun, (singleFlight_sound_iff hs).2 fun n t c _ hc => ?_⟩
  exact absurd (mem_of_getElem? hc) (by simp [followed])

/-- The leader is dropped in `resolve_once`; the next caller follows an entry that nobody takes out. -/
theorem singleFlight_entry_left :
    ∃ s, (empty : SingleFlight ℕ ℕ).run [.call 0 5, .lock 0, .read 0, .cancel 0, .call 1 5, .lock 1, .wake 1,
      .read 1, .lock 1, .wake 1, .read 1] = some s ∧ s.inflight 5 = some 0 ∧ ¬s.Sound := by
  refine ⟨_, rfl, rfl, fun hsound => ?_⟩
  obtain ⟨c, hc⟩ := hsound.led 5 0 rfl
  rcases c with _ | _ | c <;> cases hc

end SingleFlight

end AffinidiTdk.Resolver
