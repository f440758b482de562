/-
The rate of messages to an endpoint: a ring of buckets, one for each second of the window, and their total kept beside
them. What is in the buckets after a call is what was recorded in the window.
-/
import AffinidiTdk.Lib.Trace
import Mathlib.Tactic

namespace AffinidiTdk.Forwarding

open List Nat
open Trace

/-! ## The tracker -/

def addU32 (a b : ℕ) : ℕ := (a + b) % 2 ^ 32

/-- A bucket is the second it counts, or 0, and the count. -/
structure EndpointRateTracker where
  buckets : List (ℕ × ℕ)
  bucketCount : ℕ
  total : ℕ
  windowSecs : ℕ

namespace EndpointRateTracker

def new (windowSeconds : ℕ) : EndpointRateTracker where
  buckets := List.replicate (max windowSeconds 1) (0, 0)
  bucketCount := max windowSeconds 1
  total := 0
  windowSecs := windowSeconds

/-- The bucket's second is outside the window. -/
def Stale (cutoff : ℕ) (bucket : ℕ × ℕ) : Prop := bucket.1 > 0 ∧ bucket.1 ≤ cutoff

instance (cutoff : ℕ) (bucket : ℕ × ℕ) : Decidable (Stale cutoff bucket) := inferInstanceAs (Decidable (_ ∧ _))

/-- Empties the buckets that are outside the window. -/
def expireStale (nowSecs : ℕ) (t : EndpointRateTracker) : EndpointRateTracker :=
  let cutoff := nowSecs - t.windowSecs
  { t with
    buckets := t.buckets.map fun bucket => if Stale cutoff bucket then (0, 0) else bucket
    total := t.buckets.foldl (fun total bucket => if Stale cutoff bucket then total - bucket.2 else total) t.total }

/-- Records that so many messages were sent. -/
def recordAndRate (nowSecs count : ℕ) (t : EndpointRateTracker) : EndpointRateTracker :=
  let t := t.expireStale nowSecs
  let idx := nowSecs % t.bucketCount
  let bucket := t.buckets.getD idx (0, 0)
  let t := if bucket.1 = nowSecs then { t with buckets := t.buckets.set idx (bucket.1, addU32 bucket.2 count) }
    else { t with
      total := if bucket.1 > 0 then t.total - bucket.2 else t.total
      buckets := t.buckets.set idx (nowSecs, count) }
  { t with total := addU32 t.total count }

end EndpointRateTracker

/-! ## Runs -/

/-- A call, with what the clock says when it is made. -/
structure RateCall where
  nowSecs : ℕ
  count : ℕ

def EndpointRateTracker.step (t : EndpointRateTracker) (call : RateCall) : EndpointRateTracker :=
  t.recordAndRate call.nowSecs call.count

/-- The tracker after the first `k` calls. -/
def trackerAt (w : ℕ) (calls : List RateCall) (k : ℕ) : EndpointRateTracker :=
  after EndpointRateTracker.step (.new w) calls k

/-- What the stored buckets count. -/
def EndpointRateTracker.stored (t : EndpointRateTracker) : ℕ := (t.buckets.map Prod.snd).sum

def inWindow (w nowSecs : ℕ) (calls : List RateCall) : List RateCall :=
  calls.filter fun call => nowSecs < call.nowSecs + w ∧ call.nowSecs ≤ nowSecs

def countOf (calls : List RateCall) : ℕ := (calls.map RateCall.count).sum

/-- What is left of the total in a call at `nowSecs` before its own count is added: nothing is stale, and a bucket of
another second is given up. -/
def EndpointRateTracker.kept (nowSecs : ℕ) (t : EndpointRateTracker) : ℕ :=
  let t := t.expireStale nowSecs
  let bucket := t.buckets.getD (nowSecs % t.bucketCount) (0, 0)
  if bucket.1 = nowSecs then t.total else t.total - bucket.2

/-- No call takes the total to 2^32. -/
def TotalsFit (w : ℕ) (calls : List RateCall) : Prop :=
  ∀ k call, calls[k]? = some call → (trackerAt w calls k).kept call.nowSecs + call.count < 2 ^ 32

/-! ## The total is of the stored counts -/

/-- The total is the sum of the counts, and an empty bucket counts nothing. -/
structure Totalled (w : ℕ) (t : EndpointRateTracker) : Prop where
  windowSecs : t.windowSecs = w
  bucketCount : t.bucketCount = max w 1
  length : t.buckets.length = max w 1
  empty : ∀ bucket ∈ t.buckets, bucket.1 = 0 → bucket.2 = 0
  total : t.total = t.stored

open EndpointRateTracker

theorem totalled_new (w : ℕ) : Totalled w (.new w) := by
  refine ⟨rfl, rfl, length_replicate, fun bucket hbucket _ => ?_, ?_⟩
  · rw [eq_of_mem_replicate hbucket]
  · simp [new, stored]

theorem foldl_expire (cutoff rest : ℕ) (buckets : List (ℕ × ℕ)) :
    buckets.foldl (fun total bucket => if Stale cutoff bucket then total - bucket.2 else total)
        (rest + (buckets.map Prod.snd).sum) =
      rest + ((buckets.map fun bucket => if Stale cutoff bucket then (0, 0) else bucket).map
        Prod.snd).sum := by
  induction buckets generalizing rest with
  | nil => rfl
  | cons bucket buckets ih =>
    rw [foldl_cons, map_cons, map_cons, map_cons, sum_cons, sum_cons]
    by_cases hstale : Stale cutoff bucket
    · rw [if_pos hstale, if_pos hstale, zero_add, ← ih rest]
      congr 1
      omega
    · rw [if_neg hstale, if_neg hstale, ← add_assoc, ← add_assoc, ih (rest + bucket.2)]

variable {w : ℕ} {t : EndpointRateTracker}

theorem Totalled.expireStale (h : Totalled w t) (nowSecs : ℕ) : Totalled w (t.expireStale nowSecs) := by
  refine ⟨h.windowSecs, h.bucketCount, (length_map _).trans h.length, fun bucket hbucket hempty => ?_, ?_⟩
  · obtain ⟨old, hold, rfl⟩ := List.mem_map.1 hbucket
    split_ifs at hempty ⊢
    · rfl
    · exact h.empty old hold hempty
  · show t.buckets.foldl _ t.total = _
    rw [h.total, stored, ← zero_add (t.buckets.map Prod.snd).sum, foldl_expire, zero_add]
    rfl

theorem sum_set {buckets : List (ℕ × ℕ)} {i : ℕ} (hi : i < buckets.length) (bucket : ℕ × ℕ) :
    ((buckets.set i bucket).map Prod.snd).sum + (buckets.getD i (0, 0)).2 =
      (buckets.map Prod.snd).sum + bucket.2 := by
  induction buckets generalizing i with
  | nil => exact absurd hi (not_lt_zero i)
  | cons first buckets ih =>
    cases i with
    | zero =>
      rw [set_cons_zero, getD_cons_zero, map_cons, map_cons, sum_cons, sum_cons]
      omega
    | succ i =>
      have hrest := ih (lt_of_succ_lt_succ hi)
      rw [set_cons_succ, getD_cons_succ, map_cons, map_cons, sum_cons, sum_cons]
      omega

theorem getD_mem {buckets : List (ℕ × ℕ)} {i : ℕ} (hi : i < buckets.length) :
    buckets.getD i (0, 0) ∈ buckets := by
  rw [getD_eq_getElem?_getD, List.getElem?_eq_getElem hi, Option.getD_some]
  exact getElem_mem hi

theorem addU32_eq {a b : ℕ} (h : a + b < 2 ^ 32) : addU32 a b = a + b := mod_eq_of_lt h

theorem getD_le_stored {i : ℕ} (hi : i < t.buckets.length) : (t.buckets.getD i (0, 0)).2 ≤ t.stored :=
  single_le_sum (fun _ _ => zero_le _) _ (List.mem_map_of_mem (getD_mem hi))

theorem recordAndRate_eq (h : Totalled w t) {nowSecs count : ℕ} (hfits : t.kept nowSecs + count < 2 ^ 32) :
    t.recordAndRate nowSecs count =
      let kept := t.expireStale nowSecs
      let bucket := kept.buckets.getD (nowSecs % max w 1) (0, 0)
      { kept with
        buckets := kept.buckets.set (nowSecs % max w 1)
          (nowSecs, (if bucket.1 = nowSecs then bucket.2 else 0) + count)
        total := t.kept nowSecs + count } := by
  have hexpired := h.expireStale nowSecs
  unfold kept at hfits ⊢
  unfold recordAndRate
  generalize t.expireStale nowSecs = kept at hexpired hfits ⊢
  dsimp only at hfits ⊢
  rw [hexpired.bucketCount] at hfits ⊢
  have hidx : nowSecs % max w 1 < kept.buckets.length := by
    rw [hexpired.length]
    exact Nat.mod_lt _ (by omega)
  have hbucket := getD_le_stored hidx
  have hempty := hexpired.empty _ (getD_mem hidx)
  generalize kept.buckets.getD (nowSecs % max w 1) (0, 0) = bucket at hbucket hempty hfits ⊢
  by_cases hsame : bucket.1 = nowSecs
  · rw [if_pos hsame] at hfits
    rw [hexpired.total] at hfits
    rw [if_pos hsame, if_pos hsame, if_pos hsame]
    dsimp only
    rw [hexpired.total, addU32_eq hfits, addU32_eq (by omega), hsame]
  · rw [if_neg hsame] at hfits
    rw [if_neg hsame, if_neg hsame, if_neg hsame, Nat.zero_add]
    dsimp only
    have htotal : (if bucket.1 > 0 then kept.total - bucket.2 else kept.total) = kept.total - bucket.2 := by
      split_ifs with hpos
      · rfl
      · rw [hempty (by omega), Nat.sub_zero]
    rw [htotal, addU32_eq hfits]

theorem Totalled.recordAndRate (h : Totalled w t) {nowSecs count : ℕ} (hnow : 1 ≤ nowSecs)
    (hfits : t.kept nowSecs + count < 2 ^ 32) : Totalled w (t.recordAndRate nowSecs count) := by
  rw [recordAndRate_eq h hfits]
  have hexpired := h.expireStale nowSecs
  unfold kept
  generalize t.expireStale nowSecs = kept at hexpired ⊢
  dsimp only
  rw [hexpired.bucketCount]
  have hidx : nowSecs % max w 1 < kept.buckets.length := by
    rw [hexpired.length]
    exact mod_lt _ (by omega)
  refine ⟨hexpired.windowSecs, rfl, (length_set ..).trans hexpired.length, fun bucket hbucket hzero => ?_, ?_⟩
  · rcases mem_or_eq_of_mem_set hbucket with hold | rfl
    · exact hexpired.empty bucket hold hzero
    · dsimp only at hzero
      omega
  · have hbucket := getD_le_stored hidx
    show _ = ((kept.buckets.set _ _).map Prod.snd).sum
    rw [hexpired.total]
    unfold stored at hbucket ⊢
    by_cases hsame : (kept.buckets.getD (nowSecs % max w 1) (0, 0)).1 = nowSecs
    · have hset := sum_set hidx (nowSecs, (kept.buckets.getD (nowSecs % max w 1) (0, 0)).2 + count)
      rw [if_pos hsame, if_pos hsame]
      dsimp only at hset ⊢
      omega
    · have hset := sum_set hidx (nowSecs, 0 + count)
      rw [if_neg hsame, if_neg hsame]
      dsimp only at hset ⊢
      omega

/-- **The total is the sum of the stored counts**, whichever way the clock jumps. -/
theorem totalled_run {calls : List RateCall} (hclock : ∀ call ∈ calls, 1 ≤ call.nowSecs)
    (hfits : TotalsFit w calls) :
    ∀ k ≤ calls.length, Totalled w (trackerAt w calls k) :=
  after_inv (totalled_new w) fun k call hcall h =>
    h.recordAndRate (hclock call (mem_of_getElem? hcall)) (hfits k call hcall)

/-! ## The buckets are of the calls in the window -/

/-- The counts of the calls whose second belongs to bucket `i`. -/
def slot (w i : ℕ) (calls : List RateCall) : ℕ := countOf (calls.filter fun call => call.nowSecs % w = i)

theorem countOf_append (calls calls' : List RateCall) : countOf (calls ++ calls') =
    countOf calls + countOf calls' := by
  unfold countOf
  rw [map_append, List.sum_append]

theorem slot_cons (w i : ℕ) (call : RateCall) (calls : List RateCall) :
    slot w i (call :: calls) = (if call.nowSecs % w = i then call.count else 0) + slot w i calls := by
  unfold slot countOf
  rw [filter_cons]
  by_cases hcall : call.nowSecs % w = i
  · simp [hcall]
  · simp [hcall]

theorem sum_slot (hw : 1 ≤ w) (calls : List RateCall) : ∑ i ∈ Finset.range w, slot w i calls = countOf calls := by
  induction calls with
  | nil => exact Finset.sum_eq_zero fun i _ => rfl
  | cons call calls ih =>
    have hmem : call.nowSecs % w ∈ Finset.range w := Finset.mem_range.2 (mod_lt _ hw)
    simp only [slot_cons, Finset.sum_add_distrib, ih, Finset.sum_ite_eq, if_pos hmem]
    rfl

theorem sum_getD (buckets : List (ℕ × ℕ)) :
    (buckets.map Prod.snd).sum = ∑ i ∈ Finset.range buckets.length, (buckets.getD i (0, 0)).2 := by
  induction buckets with
  | nil => rfl
  | cons bucket buckets ih =>
    rw [map_cons, sum_cons, length_cons, Finset.sum_range_succ', ih, add_comm]
    rfl

/-- Bucket `i` when the clock says `nowSecs`: it is of a second in the window, the only one there that belongs to it,
and counts what was recorded in that second. -/
structure BucketExact (w : ℕ) (calls : List RateCall) (nowSecs i : ℕ) (bucket : ℕ × ℕ) : Prop where
  second : bucket.1 = 0 ∨ bucket.1 % w = i ∧ nowSecs < bucket.1 + w ∧ bucket.1 ≤ nowSecs
  only : ∀ call ∈ inWindow w nowSecs calls, call.nowSecs % w = i → call.nowSecs = bucket.1
  count : bucket.2 = slot w i (inWindow w nowSecs calls)

/-- Every bucket holds what the window of calls put into it. -/
structure Exact (w : ℕ) (calls : List RateCall) (nowSecs : ℕ) (t : EndpointRateTracker) : Prop where
  totalled : Totalled w t
  bucket : ∀ i < w, BucketExact w calls nowSecs i (t.buckets.getD i (0, 0))

variable {calls : List RateCall} {nowSecs lastSecs i : ℕ} {bucket : ℕ × ℕ}

theorem Exact.total (h : Exact w calls nowSecs t) (hw : 1 ≤ w) : t.total = countOf (inWindow w nowSecs calls) := by
  have hlength : t.buckets.length = w := by
    rw [h.totalled.length]
    omega
  calc t.total = ∑ i ∈ Finset.range w, (t.buckets.getD i (0, 0)).2 := by
        rw [h.totalled.total, stored, sum_getD, hlength]
    _ = ∑ i ∈ Finset.range w, slot w i (inWindow w nowSecs calls) :=
        Finset.sum_congr rfl fun i hi => (h.bucket i (Finset.mem_range.1 hi)).count
    _ = countOf (inWindow w nowSecs calls) := sum_slot hw _

theorem exact_new : Exact w [] 0 (.new w) := by
  refine ⟨totalled_new w, fun i hi => ?_⟩
  have hbucket : (new w).buckets.getD i (0, 0) = (0, 0) := by
    simp [new, hi]
  rw [hbucket]
  exact ⟨.inl rfl, by simp [inWindow], rfl⟩

theorem mem_inWindow {call : RateCall} : call ∈ inWindow w nowSecs calls ↔
    call ∈ calls ∧ nowSecs < call.nowSecs + w ∧ call.nowSecs ≤ nowSecs := by
  unfold inWindow
  rw [mem_filter, decide_eq_true_eq]

theorem slot_eq_zero (h : ∀ call ∈ calls, call.nowSecs % w ≠ i) : slot w i calls = 0 := by
  have hnone : calls.filter (fun call => call.nowSecs % w = i) = [] := by
    rw [filter_eq_nil_iff]
    intro call hcall
    simpa using h call hcall
  unfold slot
  rw [hnone]
  rfl

theorem BucketExact.expire (h : BucketExact w calls lastSecs i bucket) (hle : lastSecs ≤ nowSecs)
    (hcalls : ∀ call ∈ calls, 1 ≤ call.nowSecs ∧ call.nowSecs ≤ lastSecs) :
    BucketExact w calls nowSecs i (if Stale (nowSecs - w) bucket then (0, 0) else bucket) := by
  -- what is in the window now was in it then
  have hbefore : ∀ call, call ∈ inWindow w nowSecs calls → call ∈ inWindow w lastSecs calls := by
    intro call hcall
    obtain ⟨hmem, hlt, -⟩ := mem_inWindow.1 hcall
    exact mem_inWindow.2 ⟨hmem, by omega, (hcalls call hmem).2⟩
  by_cases hstale : Stale (nowSecs - w) bucket
  · rw [if_pos hstale]
    have hnone : ∀ call ∈ inWindow w nowSecs calls, call.nowSecs % w ≠ i := by
      intro call hcall hi
      have hsecond := h.only call (hbefore call hcall) hi
      obtain ⟨hpos, hout⟩ := hstale
      obtain ⟨-, hin, -⟩ := mem_inWindow.1 hcall
      omega
    exact ⟨.inl rfl, fun call hcall hi => absurd hi (hnone call hcall), (slot_eq_zero hnone).symm⟩
  · rw [if_neg hstale]
    have hfresh : bucket.1 = 0 ∨ nowSecs < bucket.1 + w := by
      unfold Stale at hstale
      omega
    refine ⟨?_, fun call hcall hi => h.only call (hbefore call hcall) hi, ?_⟩
    · rcases h.second with hzero | ⟨hi, -, hlast⟩
      · exact .inl hzero
      · exact hfresh.imp id fun hin => ⟨hi, hin, hlast.trans hle⟩
    · rw [h.count]
      unfold slot inWindow
      rw [List.filter_filter, List.filter_filter]
      congr 1
      refine filter_congr fun call hcall => ?_
      obtain ⟨hpos, hlast⟩ := hcalls call hcall
      have hsecond := fun hin hi => h.only call (mem_inWindow.2 ⟨hcall, hin, hlast⟩) hi
      rw [Bool.eq_iff_iff, Bool.and_eq_true, Bool.and_eq_true, decide_eq_true_eq, decide_eq_true_eq,
        decide_eq_true_eq]
      refine and_congr_right fun hi => ⟨fun hin => ?_, fun hin => ⟨by omega, hlast⟩⟩
      have heq := hsecond hin.1 hi
      omega

theorem Exact.expireStale (h : Exact w calls lastSecs t) (hle : lastSecs ≤ nowSecs)
    (hcalls : ∀ call ∈ calls, 1 ≤ call.nowSecs ∧ call.nowSecs ≤ lastSecs) :
    Exact w calls nowSecs (t.expireStale nowSecs) := by
  refine ⟨h.totalled.expireStale nowSecs, fun i hi => ?_⟩
  have hbucket : (t.expireStale nowSecs).buckets.getD i (0, 0) =
      if EndpointRateTracker.Stale (nowSecs - w) (t.buckets.getD i (0, 0)) then (0, 0)
      else t.buckets.getD i (0, 0) := by
    have hlength := h.totalled.length
    have hi' : i < t.buckets.length := by omega
    simp [EndpointRateTracker.expireStale, List.getElem?_eq_getElem hi', h.totalled.windowSecs]
  rw [hbucket]
  exact (h.bucket i hi).expire hle hcalls

theorem BucketExact.now (h : BucketExact w calls nowSecs (nowSecs % w) bucket) :
    bucket.1 = nowSecs ∨ bucket.1 = 0 := by
  rcases h.second with hzero | ⟨hmod, hin, hle⟩
  · exact .inr hzero
  · refine .inl ?_
    have hdvd : w ∣ nowSecs - bucket.1 := (modEq_iff_dvd' hle).1 hmod
    have hzero := eq_zero_of_dvd_of_lt hdvd (by omega)
    omega

theorem inWindow_concat (hw : 1 ≤ w) (calls : List RateCall) (nowSecs count : ℕ) :
    inWindow w nowSecs (calls ++ [⟨nowSecs, count⟩]) = inWindow w nowSecs calls ++ [⟨nowSecs, count⟩] := by
  unfold inWindow
  rw [filter_append]
  congr 1
  simpa using by omega

theorem slot_concat (w i : ℕ) (calls : List RateCall) (call : RateCall) :
    slot w i (calls ++ [call]) = slot w i calls + if call.nowSecs % w = i then call.count else 0 := by
  unfold slot
  rw [filter_append, countOf_append]
  congr 1
  by_cases hcall : call.nowSecs % w = i
  · simp [hcall, countOf]
  · simp [hcall, countOf]

theorem Exact.recordAndRate (h : Exact w calls lastSecs t) (hw : 1 ≤ w) (hle : lastSecs ≤ nowSecs)
    (hcalls : ∀ call ∈ calls, 1 ≤ call.nowSecs ∧ call.nowSecs ≤ lastSecs) (hnow : 1 ≤ nowSecs) {count : ℕ}
    (hfits : countOf (inWindow w nowSecs (calls ++ [⟨nowSecs, count⟩])) < 2 ^ 32) :
    Exact w (calls ++ [⟨nowSecs, count⟩]) nowSecs (t.recordAndRate nowSecs count) := by
  have hexpired := h.expireStale hle hcalls
  have hmax : max w 1 = w := by omega
  have hidx : nowSecs % w < w := mod_lt _ hw
  have hmine := hexpired.bucket _ hidx
  -- a bucket that is not of this second counts nothing
  have hother : ((t.expireStale nowSecs).buckets.getD (nowSecs % w) (0, 0)).1 ≠ nowSecs →
      ((t.expireStale nowSecs).buckets.getD (nowSecs % w) (0, 0)).2 = 0 := by
    intro hne
    have hlength := hexpired.totalled.length
    exact hexpired.totalled.empty _ (getD_mem (by omega)) (hmine.now.resolve_left hne)
  have hkept : t.kept nowSecs + count < 2 ^ 32 := by
    rw [inWindow_concat hw, countOf_append, ← hexpired.total hw] at hfits
    unfold kept
    dsimp only
    rw [hexpired.totalled.bucketCount, hmax]
    have hcount : countOf [(⟨nowSecs, count⟩ : RateCall)] = count := by simp [countOf]
    rw [hcount] at hfits
    split_ifs
    · exact hfits
    · omega
  refine ⟨h.totalled.recordAndRate hnow hkept, fun i hi => ?_⟩
  rw [recordAndRate_eq h.totalled hkept, hmax]
  dsimp only
  by_cases hi' : i = nowSecs % w
  · subst hi'
    have hset : ∀ bucket, ((t.expireStale nowSecs).buckets.set (nowSecs % w) bucket).getD (nowSecs % w) (0, 0) =
        bucket := by
      intro bucket
      have hlength := hexpired.totalled.length
      have hin : nowSecs % w < (t.expireStale nowSecs).buckets.length := by omega
      simp [hin]
    rw [hset]
    refine ⟨.inr ⟨rfl, by dsimp only; omega, le_rfl⟩, fun call hcall hmod => ?_, ?_⟩
    · rw [inWindow_concat hw, mem_append, mem_singleton] at hcall
      rcases hcall with hold | rfl
      · have hsecond := hmine.only call hold hmod
        rcases hmine.now with hsame | hzero
        · exact hsecond.trans hsame
        · have hpos := (hcalls call (mem_inWindow.1 hold).1).1
          omega
      · rfl
    · rw [inWindow_concat hw, slot_concat, if_pos rfl, ← hmine.count]
      dsimp only
      split_ifs with hsame
      · rfl
      · rw [hother hsame]
  · have hset : ∀ bucket, ((t.expireStale nowSecs).buckets.set (nowSecs % w) bucket).getD i (0, 0) =
        (t.expireStale nowSecs).buckets.getD i (0, 0) := by
      intro bucket
      rw [getD_eq_getElem?_getD, List.getElem?_set_ne (Ne.symm hi'), getD_eq_getElem?_getD]
    rw [hset]
    have hbucket := hexpired.bucket i hi
    refine ⟨hbucket.second, fun call hcall hmod => ?_, ?_⟩
    · rw [inWindow_concat hw, mem_append, mem_singleton] at hcall
      rcases hcall with hold | rfl
      · exact hbucket.only call hold hmod
      · exact absurd hmod.symm hi'
    · rw [inWindow_concat hw, slot_concat, if_neg (Ne.symm hi'), add_zero]
      exact hbucket.count

/-! ## Runs -/

/-- The tracker after `k` calls, with the second of the last one. -/
structure ExactRun (w : ℕ) (calls : List RateCall) (k lastSecs : ℕ) (t : EndpointRateTracker) : Prop where
  exact : Exact w (calls.take k) lastSecs t
  before : ∀ call ∈ calls.take k, call.nowSecs ≤ lastSecs
  later : ∀ j call, k ≤ j → calls[j]? = some call → lastSecs ≤ call.nowSecs

/-- One more call keeps every bucket exact. -/
theorem ExactRun.step (hw : 1 ≤ w) (hsecs : ∀ call ∈ calls, 1 ≤ call.nowSecs)
    (hclock : calls.Pairwise fun a b => a.nowSecs ≤ b.nowSecs) {k : ℕ} {call : RateCall}
      (hcall : calls[k]? = some call)
    (hfits : countOf (inWindow w call.nowSecs (calls.take (k + 1))) < 2 ^ 32) (h : ExactRun w calls k lastSecs t) :
    ExactRun w calls (k + 1) call.nowSecs (t.step call) := by
  have htake : calls.take (k + 1) = calls.take k ++ [call] := by
    rw [take_add_one, hcall]
    rfl
  rw [htake] at hfits
  have hexact := h.exact.recordAndRate hw (h.later k call le_rfl hcall)
    (fun c hc => ⟨hsecs c (mem_of_mem_take hc), h.before c hc⟩) (hsecs call (mem_of_getElem? hcall)) hfits
  refine ⟨htake ▸ hexact, fun c hc => ?_, fun j c hkj hc => time_le hclock hcall hc (le_of_succ_le hkj)⟩
  obtain ⟨i, hi, rfl⟩ := mem_take_iff_getElem.1 hc
  exact time_le hclock (List.getElem?_eq_getElem (by omega)) hcall (by omega)

/-- **The tracker is exact**: with a clock that does not go back the total after a call is of what was recorded in the
window, and with any clock it is of what is stored. -/
theorem endpointRate_exact (hw : 1 ≤ w) (hsecs : ∀ call ∈ calls, 1 ≤ call.nowSecs) :
    (calls.Pairwise (fun a b => a.nowSecs ≤ b.nowSecs) →
      (∀ k call, calls[k]? = some call → countOf (inWindow w call.nowSecs (calls.take (k + 1))) < 2 ^ 32) →
      ∀ k call, calls[k]? = some call →
        (trackerAt w calls (k + 1)).total = countOf (inWindow w call.nowSecs (calls.take (k + 1)))) ∧
    (TotalsFit w calls → ∀ k ≤ calls.length, (trackerAt w calls k).total = (trackerAt w calls k).stored) := by
  refine ⟨fun hclock hfits k call hcall => ?_, fun hfits k hk => (totalled_run hsecs hfits k hk).total⟩
  have hrun : ∀ k ≤ calls.length, ∃ lastSecs, ExactRun w calls k lastSecs (trackerAt w calls k) := by
    refine @after_inv _ _ _ _ _ (fun k t => ∃ lastSecs, ExactRun w calls k lastSecs t) ?_ ?_
    · exact ⟨0, exact_new, by simp, fun _ _ _ _ => zero_le _⟩
    · rintro k call hcall ⟨lastSecs, h⟩
      exact ⟨call.nowSecs, h.step hw hsecs hclock hcall (hfits k call hcall)⟩
  obtain ⟨lastSecs, h⟩ := hrun k (List.getElem?_eq_some_iff.1 hcall).1.le
  have hnext := (h.step hw hsecs hclock hcall (hfits k call hcall)).exact.total hw
  rw [trackerAt, after_succ hcall]
  exact hnext

/-- Two calls in the window and one that is out of it by the third; then the clock goes back. -/
theorem endpointRate_exact_three :
    (trackerAt 3 [⟨1, 4⟩, ⟨2, 5⟩, ⟨4, 6⟩] 3).total = 11 ∧
      (trackerAt 3 [⟨4, 4⟩, ⟨2, 5⟩] 2).total = (trackerAt 3 [⟨4, 4⟩, ⟨2, 5⟩] 2).stored := by
  constructor
  · refine ((endpointRate_exact (by decide) (by decide)).1 (by decide) (fun k call hcall => ?_) 2
      ⟨4, 6⟩ rfl).trans rfl
    rcases k with _ | _ | _ | k
    · cases hcall
      decide
    · cases hcall
      decide
    · cases hcall
      decide
    · simp at hcall
  · refine (endpointRate_exact (by decide) (by decide)).2 (fun k call hcall => ?_) 2 (by decide)
    rcases k with _ | _ | k
    · cases hcall
      decide
    · cases hcall
      decide
    · simp at hcall

end AffinidiTdk.Forwarding
