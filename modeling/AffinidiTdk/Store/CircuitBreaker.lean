/-
The circuit breaker in front of the store: three states, a count of failures and the time at which it opened. A success
closes it in whatever state it is, so the breaker follows its documented transitions just as long as no success is
recorded while it is open.
-/
import AffinidiTdk.Lib.Trace
import Mathlib.Data.List.TakeWhile
import Mathlib.Tactic

namespace AffinidiTdk.Store

open Trace Nat

/-! ## The breaker -/

/-- The three states of the breaker. -/
inductive BreakerState
  | stateClosed
  | stateOpen
  | stateHalfOpen
  deriving DecidableEq

open BreakerState

/-- The breaker with its counter and the time it opened. -/
structure CircuitBreaker where
  state : BreakerState
  consecutiveFailures : ℕ
  failureThreshold : ℕ
  openedAt : ℕ
  openDurationSecs : ℕ

namespace CircuitBreaker

def new (failureThreshold openDurationSecs : ℕ) : CircuitBreaker where
  state := stateClosed
  consecutiveFailures := 0
  failureThreshold
  openedAt := 0
  openDurationSecs

/-- Whether a request may go through. -/
def allowRequest (nowSecs : ℕ) (cb : CircuitBreaker) : Bool × CircuitBreaker :=
  match cb.state with
  | stateClosed => (true, cb)
  | stateOpen =>
    if nowSecs - cb.openedAt ≥ cb.openDurationSecs then (true, { cb with state := stateHalfOpen }) else (false, cb)
  -- one probe is under way
  | stateHalfOpen => (false, cb)

def recordSuccess (cb : CircuitBreaker) : CircuitBreaker :=
  { cb with consecutiveFailures := 0, state := stateClosed }

/-- The count is a `u32` that wraps. -/
def recordFailure (nowSecs : ℕ) (cb : CircuitBreaker) : CircuitBreaker :=
  let failures := (cb.consecutiveFailures + 1) % 2 ^ 32
  let cb := { cb with consecutiveFailures := failures }
  match cb.state with
  | stateClosed =>
    if failures ≥ cb.failureThreshold then { cb with state := stateOpen, openedAt := nowSecs } else cb
  | stateOpen => cb
  | stateHalfOpen => { cb with state := stateOpen, openedAt := nowSecs }

end CircuitBreaker

/-! ## Runs -/

/-- The calls on the breaker. -/
inductive BreakerOp
  | allowRequest
  | recordSuccess
  | recordFailure
  deriving DecidableEq

/-- A call, with what the clock says when it is made. -/
structure BreakerCall where
  nowSecs : ℕ
  op : BreakerOp

def CircuitBreaker.step (cb : CircuitBreaker) (call : BreakerCall) : CircuitBreaker :=
  match call.op with
  | .allowRequest => (cb.allowRequest call.nowSecs).2
  | .recordSuccess => cb.recordSuccess
  | .recordFailure => cb.recordFailure call.nowSecs

section

variable (threshold duration : ℕ) (calls : List BreakerCall)

/-- The breaker after the first `k` calls. -/
def breakerAt (k : ℕ) : CircuitBreaker := after CircuitBreaker.step (.new threshold duration) calls k

/-- Call `k` asks for a request and is allowed one. -/
def AllowedAt (k : ℕ) (nowSecs : ℕ) : Prop :=
  calls[k]? = some ⟨nowSecs, .allowRequest⟩ ∧ ((breakerAt threshold duration calls k).allowRequest nowSecs).1 = true

/-- Call `k` opens the breaker. -/
def OpensAt (k : ℕ) (nowSecs : ℕ) : Prop :=
  (∃ op, calls[k]? = some ⟨nowSecs, op⟩) ∧ (breakerAt threshold duration calls k).state ≠ stateOpen ∧
    (breakerAt threshold duration calls (k + 1)).state = stateOpen

/-- The failures with no success after them. -/
def failuresInARow (calls : List BreakerCall) : ℕ :=
  (calls.reverse.takeWhile fun call => call.op ≠ .recordSuccess).countP fun call => call.op = .recordFailure

/-- The transitions of the module's documentation, and what each state lets through. -/
structure FollowsAutomaton : Prop where
  opensOnFailures : ∀ k < calls.length, (breakerAt threshold duration calls k).state = stateClosed →
    (breakerAt threshold duration calls (k + 1)).state ≠ stateClosed →
    threshold ≤ failuresInARow (calls.take (k + 1))
  failsFast : ∀ k openedAt, OpensAt threshold duration calls k openedAt →
    ∀ j nowSecs, k < j → AllowedAt threshold duration calls j nowSecs → openedAt + duration ≤ nowSecs
  oneProbe : ∀ k j, k ≤ j → (breakerAt threshold duration calls k).state = stateHalfOpen →
    (∀ i call, k ≤ i → i < j → calls[i]? = some call → call.op = .allowRequest) →
    ∀ nowSecs, ¬AllowedAt threshold duration calls j nowSecs
  closesOnProbe : ∀ k < calls.length, (breakerAt threshold duration calls k).state = stateOpen →
    (breakerAt threshold duration calls (k + 1)).state ≠ stateClosed

/-- No success is recorded while the breaker is open. -/
def NoLateSuccess : Prop :=
  ∀ k call, calls[k]? = some call → call.op = .recordSuccess →
    (breakerAt threshold duration calls k).state ≠ stateOpen

end

/-! ## One call -/

namespace CircuitBreaker

variable {cb : CircuitBreaker} {call : BreakerCall}

/-- What a call does, state by state. -/
theorem step_cases (cb : CircuitBreaker) (call : BreakerCall) :
    (call.op = .recordSuccess ∧ cb.step call = cb.recordSuccess) ∨
    (call.op = .allowRequest ∧ cb.step call = cb) ∨
    (call.op = .allowRequest ∧ cb.state = stateOpen ∧ cb.openDurationSecs ≤ call.nowSecs - cb.openedAt ∧
      cb.step call = { cb with state := stateHalfOpen }) ∨
    (call.op = .recordFailure ∧ cb.state ≠ stateHalfOpen ∧
      cb.step call = { cb with consecutiveFailures := (cb.consecutiveFailures + 1) % 2 ^ 32 }) ∨
    (call.op = .recordFailure ∧ cb.state ≠ stateOpen ∧
      (cb.state = stateClosed → cb.failureThreshold ≤ (cb.consecutiveFailures + 1) % 2 ^ 32) ∧
      cb.step call = { cb with
        consecutiveFailures := (cb.consecutiveFailures + 1) % 2 ^ 32
        state := stateOpen
        openedAt := call.nowSecs }) := by
  obtain ⟨nowSecs, op⟩ := call
  cases op with
  | recordSuccess => exact .inl ⟨rfl, rfl⟩
  | allowRequest =>
    by_cases hwaited : cb.state = stateOpen ∧ nowSecs - cb.openedAt ≥ cb.openDurationSecs
    · obtain ⟨hopen, hwaited⟩ := hwaited
      refine .inr (.inr (.inl ⟨rfl, hopen, hwaited, ?_⟩))
      simp only [step, allowRequest, hopen]
      rw [if_pos hwaited]
    · refine .inr (.inl ⟨rfl, ?_⟩)
      cases hstate : cb.state with
      | stateOpen =>
        simp only [step, allowRequest, hstate]
        rw [if_neg fun h => hwaited ⟨hstate, h⟩]
      | stateClosed | stateHalfOpen => simp only [step, allowRequest, hstate]
  | recordFailure =>
    cases hstate : cb.state with
    | stateClosed =>
      by_cases hreached : (cb.consecutiveFailures + 1) % 2 ^ 32 ≥ cb.failureThreshold
      · refine .inr (.inr (.inr (.inr ⟨rfl, by simp, fun _ => hreached, ?_⟩)))
        simp only [step, recordFailure, hstate]
        rw [if_pos hreached]
      · refine .inr (.inr (.inr (.inl ⟨rfl, by simp, ?_⟩)))
        simp only [step, recordFailure, hstate]
        rw [if_neg hreached]
    | stateOpen =>
      refine .inr (.inr (.inr (.inl ⟨rfl, by simp, ?_⟩)))
      simp only [step, recordFailure, hstate]
    | stateHalfOpen =>
      refine .inr (.inr (.inr (.inr ⟨rfl, by simp, by simp, ?_⟩)))
      simp only [step, recordFailure, hstate]

theorem step_settings (cb : CircuitBreaker) (call : BreakerCall) :
    (cb.step call).failureThreshold = cb.failureThreshold ∧ (cb.step call).openDurationSecs =
      cb.openDurationSecs := by
  rcases step_cases cb call with ⟨-, h⟩ | ⟨-, h⟩ | ⟨-, -, -, h⟩ | ⟨-, -, h⟩ | ⟨-, -, -, h⟩
  all_goals rw [h]; exact ⟨rfl, rfl⟩

theorem allowRequest_iff (cb : CircuitBreaker) (nowSecs : ℕ) : (cb.allowRequest nowSecs).1 = true ↔
    cb.state = stateClosed ∨ cb.state = stateOpen ∧ cb.openDurationSecs ≤ nowSecs - cb.openedAt := by
  unfold allowRequest
  cases hstate : cb.state with
  | stateClosed => simp
  | stateOpen =>
    dsimp only
    split_ifs with hwaited
    · simpa using hwaited
    · simpa using hwaited
  | stateHalfOpen => simp

end CircuitBreaker

/-! ## Failures in a row -/

theorem failuresInARow_concat (calls : List BreakerCall) (call : BreakerCall) :
    failuresInARow (calls ++ [call]) = match call.op with
      | .recordSuccess => 0
      | .allowRequest => failuresInARow calls
      | .recordFailure => failuresInARow calls + 1 := by
  unfold failuresInARow
  rw [List.reverse_append, List.reverse_singleton, List.singleton_append, List.takeWhile_cons]
  cases hop : call.op with
  | recordSuccess => simp
  | allowRequest => simp [hop]
  | recordFailure => simp [hop]

theorem failuresInARow_take {calls : List BreakerCall} {k : ℕ} {call : BreakerCall} (hcall : calls[k]? = some call) :
    failuresInARow (calls.take (k + 1)) = match call.op with
      | .recordSuccess => 0
      | .allowRequest => failuresInARow (calls.take k)
      | .recordFailure => failuresInARow (calls.take k) + 1 := by
  rw [List.take_add_one, hcall]
  exact failuresInARow_concat _ call

/-! ## The invariant -/

section

variable {threshold duration : ℕ} {calls : List BreakerCall}

/-- After `k` calls: the count is of failures in a row, and since every opening the breaker has stayed open or the wait
is over. -/
structure BreakerInv (threshold duration : ℕ) (calls : List BreakerCall) (k : ℕ) (cb : CircuitBreaker) : Prop where
  failureThreshold : cb.failureThreshold = threshold
  openDurationSecs : cb.openDurationSecs = duration
  counted : cb.consecutiveFailures ≤ failuresInARow (calls.take k)
  openedAt : cb.state = stateOpen → ∃ i < k, ∃ call, calls[i]? = some call ∧ call.nowSecs = cb.openedAt
  waited : ∀ i < k, ∀ nowSecs, OpensAt threshold duration calls i nowSecs →
    (cb.state = stateOpen ∧ nowSecs ≤ cb.openedAt) ∨
      ∃ j < k, ∃ call, calls[j]? = some call ∧ nowSecs + duration ≤ call.nowSecs

theorem breakerInv_start : BreakerInv threshold duration calls 0 (.new threshold duration) := by
  refine ⟨rfl, rfl, zero_le _, fun hopen => ?_, fun i hi => absurd hi (not_lt_zero i)⟩
  exact absurd hopen (by simp [CircuitBreaker.new])

variable {k : ℕ} {call : BreakerCall}

theorem breakerAt_succ (hcall : calls[k]? = some call) : breakerAt threshold duration calls (k + 1) =
    (breakerAt threshold duration calls k).step call :=
  after_succ hcall

/-- One more call keeps the count and the waits. -/
theorem BreakerInv.step (hclock : calls.Pairwise fun a b => a.nowSecs ≤ b.nowSecs)
    (hlate : NoLateSuccess threshold duration calls) (hcall : calls[k]? = some call)
    (h : BreakerInv threshold duration calls k (breakerAt threshold duration calls k)) :
    BreakerInv threshold duration calls (k + 1) ((breakerAt threshold duration calls k).step call) := by
  obtain ⟨hthreshold, hduration⟩ := (breakerAt threshold duration calls k).step_settings call
  have hcount := failuresInARow_take hcall
  -- a wait that is over stays over
  have hover : ∀ {t : ℕ}, (∃ j < k, ∃ call, calls[j]? = some call ∧ t + duration ≤ call.nowSecs) →
      ∃ j < k + 1, ∃ call, calls[j]? = some call ∧ t + duration ≤ call.nowSecs := by
    rintro t ⟨j, hj, rest⟩
    exact ⟨j, lt_succ_of_lt hj, rest⟩
  -- the call at `k` opens the breaker only if it is open afterwards and was not before
  have hopens : ∀ {t : ℕ}, OpensAt threshold duration calls k t → t = call.nowSecs ∧
      (breakerAt threshold duration calls k).state ≠ stateOpen ∧
      ((breakerAt threshold duration calls k).step call).state = stateOpen := by
    rintro t ⟨⟨op, hop⟩, hbefore, hafter⟩
    rw [breakerAt_succ hcall] at hafter
    rw [hcall, Option.some.injEq] at hop
    exact ⟨by rw [hop], hbefore, hafter⟩
  refine ⟨hthreshold.trans h.failureThreshold, hduration.trans h.openDurationSecs, ?_, ?_, ?_⟩
  · rcases CircuitBreaker.step_cases (breakerAt threshold duration calls k) call with
      ⟨hop, hstep⟩ | ⟨hop, hstep⟩ | ⟨hop, -, -, hstep⟩ | ⟨hop, -, hstep⟩ | ⟨hop, -, -, hstep⟩
    · rw [hstep]
      exact zero_le _
    · rw [hstep, hcount, hop]
      exact h.counted
    · rw [hstep, hcount, hop]
      exact h.counted
    all_goals
      rw [hstep, hcount, hop]
      exact (mod_le _ _).trans (succ_le_succ h.counted)
  · intro hopen
    rcases CircuitBreaker.step_cases (breakerAt threshold duration calls k) call with
      ⟨-, hstep⟩ | ⟨-, hstep⟩ | ⟨-, -, -, hstep⟩ | ⟨-, -, hstep⟩ | ⟨-, -, -, hstep⟩
    · rw [hstep] at hopen
      exact absurd hopen (by simp [CircuitBreaker.recordSuccess])
    · rw [hstep] at hopen ⊢
      obtain ⟨i, hi, rest⟩ := h.openedAt hopen
      exact ⟨i, lt_succ_of_lt hi, rest⟩
    · rw [hstep] at hopen
      exact absurd hopen (by simp)
    · rw [hstep] at hopen ⊢
      obtain ⟨i, hi, rest⟩ := h.openedAt hopen
      exact ⟨i, lt_succ_of_lt hi, rest⟩
    · rw [hstep]
      exact ⟨k, lt_succ_self k, call, hcall, rfl⟩
  · intro i hi t ht
    rcases CircuitBreaker.step_cases (breakerAt threshold duration calls k) call with
      ⟨hop, hstep⟩ | ⟨-, hstep⟩ | ⟨-, hopen, hwait, hstep⟩ | ⟨-, -, hstep⟩ | ⟨-, hnot, -, hstep⟩
    · -- no success while it is open, so every wait is over
      rcases eq_or_lt_of_le (le_of_lt_succ hi) with rfl | hi
      · obtain ⟨-, -, hafter⟩ := hopens ht
        rw [hstep] at hafter
        exact absurd hafter (by simp [CircuitBreaker.recordSuccess])
      · rcases h.waited i hi t ht with ⟨hopen, -⟩ | hwaited
        · exact absurd hopen (hlate k call hcall hop)
        · exact .inr (hover hwaited)
    · rcases eq_or_lt_of_le (le_of_lt_succ hi) with rfl | hi
      · obtain ⟨-, hbefore, hafter⟩ := hopens ht
        rw [hstep] at hafter
        exact absurd hafter hbefore
      · rw [hstep]
        exact (h.waited i hi t ht).imp id hover
    · -- the probe is let through: this is the end of the wait
      rcases eq_or_lt_of_le (le_of_lt_succ hi) with rfl | hi
      · exact absurd hopen (hopens ht).2.1
      · rcases h.waited i hi t ht with ⟨-, hsince⟩ | hwaited
        · obtain ⟨j, hj, opening, hopening, htime⟩ := h.openedAt hopen
          have hle := time_le hclock hopening hcall hj.le
          rw [h.openDurationSecs] at hwait
          exact .inr ⟨k, lt_succ_self k, call, hcall, by omega⟩
        · exact .inr (hover hwaited)
    · rcases eq_or_lt_of_le (le_of_lt_succ hi) with rfl | hi
      · obtain ⟨-, hbefore, hafter⟩ := hopens ht
        rw [hstep] at hafter
        exact absurd hafter hbefore
      · rw [hstep]
        exact (h.waited i hi t ht).imp id hover
    · rw [hstep]
      rcases eq_or_lt_of_le (le_of_lt_succ hi) with rfl | hi
      · exact .inl ⟨rfl, (hopens ht).1.le⟩
      · rcases h.waited i hi t ht with ⟨hopen, -⟩ | hwaited
        · exact absurd hopen hnot
        · exact .inr (hover hwaited)

section

variable (hclock : calls.Pairwise fun a b => a.nowSecs ≤ b.nowSecs) (hlate : NoLateSuccess threshold duration calls)
include hclock hlate

theorem breakerInv : ∀ k ≤ calls.length, BreakerInv threshold duration calls k
    (breakerAt threshold duration calls k) :=
  after_inv breakerInv_start fun _ _ hcall h => h.step hclock hlate hcall

/-! ## The automaton -/

theorem opens_on_failures (hk : k < calls.length)
    (hclosed : (breakerAt threshold duration calls k).state = stateClosed)
    (hleft : (breakerAt threshold duration calls (k + 1)).state ≠ stateClosed) : threshold ≤
    failuresInARow (calls.take (k + 1)) := by
  obtain ⟨call, hcall⟩ := exists_input hk
  have hinv := breakerInv hclock hlate k hk.le
  rw [breakerAt_succ hcall] at hleft
  rcases CircuitBreaker.step_cases (breakerAt threshold duration calls k) call with
    ⟨-, hstep⟩ | ⟨-, hstep⟩ | ⟨-, hopen, -, -⟩ | ⟨-, -, hstep⟩ | ⟨hop, -, hreached, -⟩
  · rw [hstep] at hleft
    exact absurd rfl hleft
  · rw [hstep] at hleft
    exact absurd hclosed hleft
  · rw [hclosed] at hopen
    cases hopen
  · rw [hstep] at hleft
    exact absurd hclosed hleft
  · rw [failuresInARow_take hcall, hop]
    calc threshold = (breakerAt threshold duration calls k).failureThreshold := hinv.failureThreshold.symm
      _ ≤ ((breakerAt threshold duration calls k).consecutiveFailures + 1) % 2 ^ 32 := hreached hclosed
      _ ≤ (breakerAt threshold duration calls k).consecutiveFailures + 1 := mod_le _ _
      _ ≤ failuresInARow (calls.take k) + 1 := succ_le_succ hinv.counted

end

variable {j : ℕ}

theorem fails_fast (hclock : calls.Pairwise fun a b => a.nowSecs ≤ b.nowSecs)
    (hlate : NoLateSuccess threshold duration calls) {openedAt nowSecs : ℕ}
    (hopens : OpensAt threshold duration calls k openedAt) (hkj : k < j)
    (hallowed : AllowedAt threshold duration calls j nowSecs) : openedAt + duration ≤ nowSecs := by
  obtain ⟨hcall, hallowed⟩ := hallowed
  have hinv := breakerInv hclock hlate j (List.getElem?_eq_some_iff.1 hcall).1.le
  rcases hinv.waited k hkj openedAt hopens with ⟨hopen, hsince⟩ | ⟨i, hi, call, hi', htime⟩
  · -- it is still open, so this call is the probe
    rcases (CircuitBreaker.allowRequest_iff _ _).1 hallowed with hclosed | ⟨-, hwait⟩
    · rw [hopen] at hclosed
      cases hclosed
    · obtain ⟨i, hi, opening, hopening, htime⟩ := hinv.openedAt hopen
      have hle := time_le hclock hopening hcall hi.le
      rw [hinv.openDurationSecs] at hwait
      dsimp only at hle
      omega
  · exact htime.trans (time_le hclock hi' hcall hi.le)

theorem halfOpen_until (hkj : k ≤ j) (hj : j ≤ calls.length)
    (hhalf : (breakerAt threshold duration calls k).state = stateHalfOpen)
    (hnone : ∀ i call, k ≤ i → i < j → calls[i]? = some call → call.op = .allowRequest) :
    (breakerAt threshold duration calls j).state = stateHalfOpen := by
  induction j, hkj using le_induction with
  | base => exact hhalf
  | succ j hkj ih =>
    have hbefore := ih (le_of_succ_le hj) fun i call hki hij => hnone i call hki (lt_succ_of_lt hij)
    obtain ⟨call, hcall⟩ := exists_input hj
    obtain ⟨nowSecs, op⟩ := call
    obtain rfl : op = .allowRequest := hnone j _ hkj (lt_succ_self j) hcall
    rw [breakerAt_succ hcall]
    show ((breakerAt threshold duration calls j).allowRequest nowSecs).2.state = stateHalfOpen
    unfold CircuitBreaker.allowRequest
    rw [hbefore]
    exact hbefore

theorem one_probe {nowSecs : ℕ} (hkj : k ≤ j)
    (hhalf : (breakerAt threshold duration calls k).state = stateHalfOpen)
    (hnone : ∀ i call, k ≤ i → i < j → calls[i]? = some call → call.op = .allowRequest) :
    ¬AllowedAt threshold duration calls j nowSecs := by
  rintro ⟨hcall, hallowed⟩
  have hstill := halfOpen_until hkj (List.getElem?_eq_some_iff.1 hcall).1.le hhalf hnone
  rcases (CircuitBreaker.allowRequest_iff _ _).1 hallowed with hclosed | ⟨hopen, -⟩
  · rw [hstill] at hclosed
    cases hclosed
  · rw [hstill] at hopen
    cases hopen

/-- A step from open to closed is a success that came late. -/
theorem closes_from_open_iff (hcall : calls[k]? = some call)
    (hopen : (breakerAt threshold duration calls k).state = stateOpen) :
    (breakerAt threshold duration calls (k + 1)).state = stateClosed ↔ call.op = .recordSuccess := by
  rw [breakerAt_succ hcall]
  rcases CircuitBreaker.step_cases (breakerAt threshold duration calls k) call with
    ⟨hop, hstep⟩ | ⟨hop, hstep⟩ | ⟨hop, -, -, hstep⟩ | ⟨hop, -, hstep⟩ | ⟨hop, hnot, -, -⟩
  · rw [hstep, hop]
    exact iff_of_true rfl rfl
  · rw [hstep, hop, hopen]
    simp
  · rw [hstep, hop]
    simp
  · rw [hstep, hop]
    simp [hopen]
  · exact absurd hopen hnot

/-- **The breaker follows its automaton** in a run exactly if no success is recorded while it is open. -/
theorem followsAutomaton_iff (hclock : calls.Pairwise fun a b => a.nowSecs ≤ b.nowSecs) :
    FollowsAutomaton threshold duration calls ↔ NoLateSuccess threshold duration calls := by
  constructor
  · intro h k call hcall hop hopen
    exact h.closesOnProbe k (List.getElem?_eq_some_iff.1 hcall).1 hopen ((closes_from_open_iff hcall hopen).2 hop)
  · intro hlate
    refine ⟨fun k hk hclosed hleft => opens_on_failures hclock hlate hk hclosed hleft,
      fun k t hopens j nowSecs hkj hallowed => fails_fast hclock hlate hopens hkj hallowed,
      fun k j hkj hhalf hnone nowSecs => one_probe hkj hhalf hnone, fun k hk hopen hclosed => ?_⟩
    obtain ⟨call, hcall⟩ := exists_input hk
    exact hlate k call hcall ((closes_from_open_iff hcall hopen).1 hclosed) hopen

end

/-- A failure, a probe after the wait, and its success. -/
def recovery : List BreakerCall := [⟨0, .recordFailure⟩, ⟨10, .allowRequest⟩, ⟨11, .recordSuccess⟩]

theorem recovery_followsAutomaton : FollowsAutomaton 1 10 recovery := by
  refine (followsAutomaton_iff (by decide)).2 fun k call hcall hop => ?_
  rcases k with _ | _ | _ | k
  · cases hcall
    cases hop
  · cases hcall
    cases hop
  · decide
  · simp [recovery] at hcall

/-- A success of a request from before the breaker opened. -/
def lateSuccess : List BreakerCall := [⟨0, .recordFailure⟩, ⟨1, .recordSuccess⟩, ⟨1, .allowRequest⟩]

/-- It closes the breaker at once, and the next request goes through nine seconds early. -/
theorem lateSuccess_closes :
    OpensAt 1 10 lateSuccess 0 0 ∧ AllowedAt 1 10 lateSuccess 2 1 ∧
      (breakerAt 1 10 lateSuccess 2).state = stateClosed ∧ ¬FollowsAutomaton 1 10 lateSuccess := by
  have hopens : OpensAt 1 10 lateSuccess 0 0 := ⟨⟨.recordFailure, rfl⟩, by decide, by decide⟩
  have hallowed : AllowedAt 1 10 lateSuccess 2 1 := ⟨rfl, by decide⟩
  refine ⟨hopens, hallowed, by decide, fun h => ?_⟩
  exact absurd (h.failsFast 0 0 hopens 2 1 (by decide) hallowed) (by decide)

end AffinidiTdk.Store
