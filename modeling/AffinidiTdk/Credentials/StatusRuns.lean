/-
Runs of a status list. Whatever is drawn, an index that is handed out or used as a decoy was not used
before, and each bit is what was last set for it; on a new list every decoy turns a bit. A published
list keeps its statuses but not which indices are taken: after decoding the same holds with the
published bits to begin with, and what was used before publication is free again.
-/
import AffinidiTdk.Credentials.StatusList
import Mathlib.Data.List.Induction
import Mathlib.Order.Basic

namespace AffinidiTdk.Credentials

open Bitstring List Option

namespace BitstringStatusList

/-! ## Records -/

section Records

variable {base : ℕ → Bool} {events : List Event} {i : ℕ}

theorem statusAfter_append (event : Event) :
    statusAfter base (events ++ [event]) i = event.status i (statusAfter base events i) := by
  rw [statusAfter, foldl_append]
  rfl

theorem used_append (event : Event) : used (events ++ [event]) = used events ++ event.touches := by
  rw [used, flatMap_append]
  simp [used]

theorem statusAfter_of_not_used (h : i ∉ used events) : statusAfter base events i = base i := by
  induction events using List.reverseRecOn with
  | nil => rfl
  | append_singleton events event ih =>
    rw [used_append, mem_append, not_or] at h
    rw [statusAfter_append, ih h.1]
    cases event with
    | set j revoked =>
      refine if_neg fun heq => h.2 ?_
      rw [heq]
      exact mem_cons_self
    | decoys count turned => exact if_neg h.2
    | allocated | full | rejected => rfl

end Records

/-! ## The invariant -/

/-- The list after a record, from given statuses: the bits are those of the record, and what was used
is taken. -/
structure Tracks (l : BitstringStatusList) (base : ℕ → Bool) (events : List Event) : Prop where
  bytes : l.bits.length = (l.size + 7) / 8
  length : l.assigned.length = l.size
  taken : ∀ i ∈ used events, i < l.size ∧ l.isAssigned i = true
  status : ∀ i, Bitstring.get l.bits i = statusAfter base events i

/-- Free indices have clear bits. -/
def Clean (l : BitstringStatusList) : Prop := ∀ i, l.isAssigned i = false → Bitstring.get l.bits i = false

variable {l after : BitstringStatusList} {base : ℕ → Bool} {events : List Event} {i j : ℕ}

theorem Tracks.room (h : Tracks l base events) : l.size ≤ 8 * l.bits.length := by
  rw [h.bytes]
  omega

theorem isAssigned_set (hj : j < l.assigned.length) : (l.assigned.set j true).getD i false =
    (decide (i = j) || l.isAssigned i) := by
  rw [getD_eq_getElem?_getD, getElem?_set, isAssigned, getD_eq_getElem?_getD]
  by_cases h : j = i
  · subst h
    simp [hj]
  · simp [h, Ne.symm h]

theorem mem_available : i ∈ l.available ↔ i < l.size ∧ l.isAssigned i = false := by
  simp [available]

/-! ## Decoys -/

theorem isAssigned_addDecoy (hj : j < l.assigned.length) :
    (l.addDecoy j).isAssigned i = (decide (i = j) || l.isAssigned i) := isAssigned_set hj

theorem get_addDecoy (hj : j < 8 * l.bits.length) :
    Bitstring.get (l.addDecoy j).bits i = if i = j then true else Bitstring.get l.bits i := get_put hj

/-- The loop lands on as many free indices as decoys are asked for, and sets their bits. -/
theorem addDecoys_eq_some {count : ℕ} {draws : List ℕ} (hroom : l.size ≤ 8 * l.bits.length)
    (hlength : l.assigned.length = l.size) (hdraws : ∀ d ∈ draws, d < l.size)
    (h : l.addDecoys count draws = some after) :
    ∃ landed : List ℕ, landed.length = count ∧ landed.Nodup ∧ (∀ i ∈ landed, i < l.size ∧ l.isAssigned i = false) ∧
      after.size = l.size ∧ after.bits.length = l.bits.length ∧ after.assigned.length = l.assigned.length ∧
      (∀ i, after.isAssigned i = (decide (i ∈ landed) || l.isAssigned i)) ∧
      ∀ i, Bitstring.get after.bits i = (decide (i ∈ landed) || Bitstring.get l.bits i) := by
  induction draws generalizing l count with
  | nil =>
    cases count with
    | succ count => cases h
    | zero =>
      cases h
      exact ⟨[], rfl, nodup_nil, by simp, rfl, rfl, rfl, by simp, by simp⟩
  | cons index draws ih =>
    cases count with
    | zero =>
      cases h
      exact ⟨[], rfl, nodup_nil, by simp, rfl, rfl, rfl, by simp, by simp⟩
    | succ count =>
      have hindex : index < l.size := hdraws index mem_cons_self
      have hrest : ∀ d ∈ draws, d < l.size := fun d hd => hdraws d (mem_cons_of_mem _ hd)
      rw [addDecoys] at h
      split_ifs at h with hassigned
      · exact ih hroom hlength hrest h
      · have hfree : l.isAssigned index = false := by simpa using hassigned
        have hbits : (l.addDecoy index).bits.length = l.bits.length := length_put
        have hassignedLength : (l.addDecoy index).assigned.length = l.assigned.length := length_set
        obtain ⟨landed, hcount, hnodup, hlanded, hsize, hbits', hlength', hisAssigned, hget⟩ :=
          ih (l := l.addDecoy index) (by rw [hbits]; exact hroom) (by rw [hassignedLength, hlength]; rfl) hrest h
        have hnew : index ∉ landed := by
          intro hmem
          have hboth := (hlanded index hmem).2
          rw [isAssigned_addDecoy (hlength.symm ▸ hindex)] at hboth
          simp at hboth
        refine ⟨index :: landed, by rw [length_cons, hcount], nodup_cons.2 ⟨hnew, hnodup⟩, ?_, hsize,
          hbits'.trans hbits, hlength'.trans hassignedLength, fun i => ?_, fun i => ?_⟩
        · intro i hi
          rcases mem_cons.1 hi with rfl | hi
          · exact ⟨hindex, hfree⟩
          · have hboth := hlanded i hi
            rw [isAssigned_addDecoy (hlength.symm ▸ hindex), Bool.or_eq_false_iff] at hboth
            exact ⟨hboth.1, hboth.2.2⟩
        · rw [hisAssigned, isAssigned_addDecoy (hlength.symm ▸ hindex)]
          by_cases hi : i = index
          · simp [hi]
          · simp [hi]
        · rw [hget, get_addDecoy (by omega)]
          by_cases hi : i = index
          · simp [hi]
          · simp [hi]

theorem mem_turned {i : ℕ} :
    i ∈ turned l after ↔ i < l.size ∧ Bitstring.get l.bits i = false ∧ Bitstring.get after.bits i = true := by
  simp [turned]

/-! ## Steps -/

theorem Tracks.refused (h : Tracks l base events) {event : Event} (htouches : event.touches = [])
    (hstatus : ∀ i b, event.status i b = b) : Tracks l base (events ++ [event]) := by
  refine ⟨h.bytes, h.length, fun i hi => ?_, fun i => ?_⟩
  · rw [used_append, htouches, append_nil] at hi
    exact h.taken i hi
  · rw [statusAfter_append, hstatus]
    exact h.status i

theorem Tracks.taken_set (h : Tracks l base events) {event : Event} {index : ℕ} (hindex : index < l.size)
    (htouches : event.touches = [index]) {assigned : ℕ → Bool}
    (hassigned : ∀ i, assigned i = (decide (i = index) || l.isAssigned i)) :
    ∀ i ∈ used (events ++ [event]), i < l.size ∧ assigned i = true := by
  intro i hi
  rw [used_append, htouches, mem_append, mem_singleton] at hi
  rw [hassigned]
  rcases hi with hi | rfl
  · exact ⟨(h.taken i hi).1, by rw [(h.taken i hi).2, Bool.or_true]⟩
  · exact ⟨hindex, by simp⟩

/-- What every operation sees to: the record goes on, the event uses only free indices, and it is in full where free
indices have clear bits. -/
structure Stepped (l : BitstringStatusList) (base : ℕ → Bool) (events : List Event) (event : Event)
    (after : BitstringStatusList) : Prop where
  tracks : Tracks after base (events ++ [event])
  size : after.size = l.size
  fresh : event.Fresh l.size (used events)
  clean : Clean l → Clean after ∧ event.Full

theorem stepped_allocateIndex (htracks : Tracks l base events) {index : ℕ} (hfree : index ∈ l.available) :
    Stepped l base events (.allocated index) { l with assigned := l.assigned.set index true } := by
  obtain ⟨hindex, hfree⟩ := mem_available.1 hfree
  -- an index that was free is touched for the first time
  have hassigned (i : ℕ) : BitstringStatusList.isAssigned { l with assigned := l.assigned.set index true } i =
      (decide (i = index) || l.isAssigned i) := isAssigned_set (htracks.length.symm ▸ hindex)
  refine ⟨⟨htracks.bytes, length_set.trans htracks.length, ?_, ?_⟩, rfl, ⟨hindex, ?_⟩, fun hclean => ⟨?_, trivial⟩⟩
  · exact htracks.taken_set hindex rfl hassigned
  · intro i
    rw [statusAfter_append]
    exact htracks.status i
  · intro hused
    rw [(htracks.taken index hused).2] at hfree
    cases hfree
  · intro i hi
    rw [hassigned, Bool.or_eq_false_iff] at hi
    exact hclean i hi.2

theorem stepped_set (htracks : Tracks l base events) {index : ℕ} (hindex : index < l.size) (revoked : Bool) :
    Stepped l base events (.set index revoked)
      { l with bits := Bitstring.put l.bits index revoked, assigned := l.assigned.set index true } := by
  have hroom : index < 8 * l.bits.length := Nat.lt_of_lt_of_le hindex htracks.room
  have hassigned (i : ℕ) : BitstringStatusList.isAssigned
      { l with bits := Bitstring.put l.bits index revoked, assigned := l.assigned.set index true } i =
        (decide (i = index) || l.isAssigned i) := isAssigned_set (htracks.length.symm ▸ hindex)
  refine ⟨⟨?_, length_set.trans htracks.length, ?_, ?_⟩, rfl, hindex, fun hclean => ⟨?_, trivial⟩⟩
  · rw [length_put]
    exact htracks.bytes
  · exact htracks.taken_set hindex rfl hassigned
  · intro i
    rw [statusAfter_append, get_put hroom, Event.status, htracks.status i]
    simp only [eq_comm]
  · intro i hi
    rw [hassigned, Bool.or_eq_false_iff, decide_eq_false_iff_not] at hi
    rw [get_put hroom, if_neg hi.1]
    exact hclean i hi.2

theorem stepped_addDecoys (htracks : Tracks l base events) {count : ℕ} {draws : List ℕ}
    (hdraws : ∀ d ∈ draws, d < l.size) (hafter : l.addDecoys count draws = some after) :
    Stepped l base events (.decoys count (turned l after)) after := by
  obtain ⟨landed, hcount, hnodup, hlanded, hsize, hbits, hlength, hassigned, hget⟩ :=
    addDecoys_eq_some htracks.room htracks.length hdraws hafter
  -- what shows of the decoys: the clear bits they land on
  have hturned {i : ℕ} : i ∈ turned l after ↔ i ∈ landed ∧ Bitstring.get l.bits i = false := by
    rw [mem_turned, hget]
    constructor
    · rintro ⟨-, hclear, hset⟩
      exact ⟨by simpa [hclear] using hset, hclear⟩
    · rintro ⟨hmem, hclear⟩
      exact ⟨(hlanded i hmem).1, hclear, by simp [hmem]⟩
  have hturnedNodup : (turned l after).Nodup := nodup_range.filter _
  refine ⟨⟨by rw [hsize, hbits]; exact htracks.bytes, by rw [hlength, hsize]; exact htracks.length, ?_, ?_⟩, hsize,
    ⟨?_, hturnedNodup, ?_⟩, fun hclean => ⟨?_, ?_⟩⟩
  · intro i hi
    rw [used_append, mem_append] at hi
    rw [hassigned, hsize]
    rcases hi with hi | hi
    · exact ⟨(htracks.taken i hi).1, by rw [(htracks.taken i hi).2, Bool.or_true]⟩
    · have hmem := (hturned.1 hi).1
      exact ⟨(hlanded i hmem).1, by simp [hmem]⟩
  · intro i
    rw [statusAfter_append, hget, Event.status, ← htracks.status i]
    split_ifs with hi
    · simp [(hturned.1 hi).1]
    · by_cases hmem : i ∈ landed
      · have hset : Bitstring.get l.bits i = true := by
          simpa using fun hclear => hi (hturned.2 ⟨hmem, hclear⟩)
        rw [hset, Bool.or_true]
      · simp [hmem]
  · rw [← hcount]
    exact (subperm_of_subset hturnedNodup fun i hi => (hturned.1 hi).1).length_le
  · intro i hi
    have hmem := (hturned.1 hi).1
    refine ⟨(hlanded i hmem).1, fun hused => ?_⟩
    have hfree := (hlanded i hmem).2
    rw [(htracks.taken i hused).2] at hfree
    cases hfree
  · intro i hi
    rw [hassigned, Bool.or_eq_false_iff, decide_eq_false_iff_not] at hi
    rw [hget, hclean i hi.2]
    simp [hi.1]
  · -- where free slots are clear, every decoy shows
    have hperm : (turned l after).Perm landed := by
      refine (perm_ext_iff_of_nodup hturnedNodup hnodup).2 fun i => hturned.trans ?_
      exact ⟨And.left, fun hmem => ⟨hmem, hclean i (hlanded i hmem).2⟩⟩
    exact hperm.length_eq.trans hcount

theorem exec_tracks {op : Op} {event : Event} (htracks : Tracks l base events)
    (h : l.exec op = some (event, after)) : Stepped l base events event after := by
  cases op with
  | allocateIndex pick =>
    rw [exec] at h
    split_ifs at h with hnone
    · cases h
      exact ⟨htracks.refused rfl fun _ _ => rfl, rfl, trivial, fun hclean => ⟨hclean, trivial⟩⟩
    · cases hpick : l.available[pick]? with
      | none => simp [allocateIndex, hpick] at h
      | some index =>
        simp only [allocateIndex, hpick, Option.some.injEq, Prod.mk.injEq] at h
        obtain ⟨rfl, rfl⟩ := h
        exact stepped_allocateIndex htracks (mem_of_getElem? hpick)
  | set index revoked =>
    rw [exec, BitstringStatusList.set] at h
    split_ifs at h with hbounds
    · cases h
      exact ⟨htracks.refused rfl fun _ _ => rfl, rfl, trivial, fun hclean => ⟨hclean, trivial⟩⟩
    · cases h
      exact stepped_set htracks (Nat.lt_of_not_le hbounds) revoked
  | addDecoys count draws =>
    rw [exec] at h
    split_ifs at h with hdraws
    obtain ⟨after', hafter, hevent⟩ := map_eq_some_iff.1 h
    cases hevent
    exact stepped_addDecoys htracks (by simpa using hdraws) hafter

theorem run_tracks {ops : List Op} {later : List Event} (htracks : Tracks l base events)
    (h : l.run ops = some (later, after)) :
    Tracks after base (events ++ later) ∧ after.size = l.size ∧
      (∀ before event rest, later = before ++ event :: rest → event.Fresh l.size (used (events ++ before))) ∧
      (Clean l → Clean after ∧ ∀ event ∈ later, event.Full) := by
  induction ops generalizing l events later with
  | nil =>
    cases h
    refine ⟨by rwa [append_nil], rfl, ?_, fun hclean => ⟨hclean, by simp⟩⟩
    intro before event rest heq
    exact absurd heq (by simp)
  | cons op ops ih =>
    rw [run] at h
    obtain ⟨⟨first, l'⟩, hfirst, h⟩ := bind_eq_some_iff.1 h
    obtain ⟨⟨others, l''⟩, hrun, h⟩ := bind_eq_some_iff.1 h
    cases h
    obtain ⟨htracks', hsize, hfresh, hclean⟩ := exec_tracks htracks hfirst
    obtain ⟨hafter, hsize', hfresh', hclean'⟩ := ih htracks' hrun
    refine ⟨?_, hsize'.trans hsize, ?_, fun h => ?_⟩
    · rwa [append_assoc] at hafter
    · intro before event rest heq
      cases before with
      | nil =>
        cases heq
        rwa [append_nil]
      | cons head before =>
        obtain ⟨rfl, hothers⟩ := List.cons.inj heq
        have hlast := hfresh' before event rest hothers
        rw [hsize] at hlast
        rwa [append_assoc] at hlast
    · obtain ⟨hafter, hfirstFull⟩ := hclean h
      obtain ⟨hlast, hfull⟩ := hclean' hafter
      exact ⟨hlast, forall_mem_cons.2 ⟨hfirstFull, hfull⟩⟩

/-! ## A new list -/

theorem new_tracks (size : ℕ) (purpose : StatusPurpose) : Tracks (new size purpose) (fun _ => false) [] where
  bytes := length_replicate
  length := length_replicate
  taken := by simp [used]
  status i := get_zeros _ i

theorem new_clean (size : ℕ) (purpose : StatusPurpose) : Clean (new size purpose) := fun i _ =>
  get_zeros _ i

theorem Tracks.get (h : Tracks l base events) (hi : i < l.size) : l.get i = .ok (statusAfter base events i) := by
  rw [BitstringStatusList.get, if_neg (Nat.not_le.2 hi), h.status i]

theorem Tracks.countSet (h : Tracks l base events) (hbase : ∀ i, l.size ≤ i → base i = false) :
    l.countSet = (List.range l.size).countP fun i => l.get i = .ok true := by
  have hclear : ∀ i, l.size ≤ i → Bitstring.get l.bits i = false := by
    intro i hi
    rw [h.status i, statusAfter_of_not_used fun hused => absurd (h.taken i hused).1 (Nat.not_lt.2 hi), hbase i hi]
  rw [BitstringStatusList.countSet, countSet_eq_of_clear h.room hclear]
  refine countP_congr fun i hi => ?_
  rw [BitstringStatusList.get, if_neg (Nat.not_le.2 (mem_range.1 hi))]
  simp

/-- A run of a new list. An index that is handed out was not used before, every decoy turns a bit of its
own that was not used before, each bit is what was last set for it, and the count is that of the set bits. -/
theorem run_new {size : ℕ} {purpose : StatusPurpose} {ops : List Op} {events : List Event}
    (h : (new size purpose).run ops = some (events, l)) :
    (∀ before event after, events = before ++ event :: after → event.Fresh size (used before) ∧ event.Full) ∧
      (∀ i < size, l.get i = .ok (statusAfter (fun _ => false) events i)) ∧
      (∀ i < size, i ∉ used events → l.get i = .ok false) ∧
      l.countSet = (List.range size).countP fun i => l.get i = .ok true := by
  obtain ⟨htracks, hsize, hfresh, hclean⟩ := run_tracks (new_tracks size purpose) h
  obtain ⟨-, hfull⟩ := hclean (new_clean size purpose)
  have hsize : l.size = size := hsize
  rw [nil_append] at htracks
  have hget : ∀ i < size, l.get i = .ok (statusAfter (fun _ => false) events i) := fun i hi =>
    htracks.get (hsize.symm ▸ hi)
  refine ⟨?_, hget, ?_, ?_⟩
  · rintro before event after rfl
    exact ⟨hfresh before event after rfl, hfull event (mem_append_right _ mem_cons_self)⟩
  · intro i hi hused
    rw [hget i hi, statusAfter_of_not_used hused]
  · rw [← hsize]
    exact htracks.countSet fun _ _ => rfl

/-- A list of ten after an index was handed out and set, and two decoys landed past a taken one. -/
def ten : BitstringStatusList :=
  ⟨[144, 128], 10, .revocation, [true, false, false, true, false, false, false, false, true, false]⟩

theorem run_ten : (new 10 .revocation).run [.allocateIndex 3, .set 3 true, .addDecoys 2 [3, 8, 8, 0]] =
    some ([.allocated 3, .set 3 true, .decoys 2 [0, 8]], ten) := by decide +kernel

theorem run_new_ten :
    (new 10 .revocation).run [.allocateIndex 3, .set 3 true, .addDecoys 2 [3, 8, 8, 0]] =
        some ([.allocated 3, .set 3 true, .decoys 2 [0, 8]], ten) ∧
      ten.get 3 = .ok true ∧ ten.get 9 = .ok false ∧
      ten.countSet = (List.range 10).countP fun i => ten.get i = .ok true := by
  obtain ⟨-, hget, huntouched, hcount⟩ := run_new run_ten
  exact ⟨run_ten, hget 3 (by decide), huntouched 9 (by decide) (by decide), hcount⟩

/-! ## Publication -/

theorem decode_tracks {gzip : Gzip} (hgzip : gzip.Lossless) (h : Tracks l base events) (purpose : StatusPurpose) :
    ∃ decoded, decode gzip (encode gzip l) l.size purpose = .ok decoded ∧ decoded.size = l.size ∧
      decoded.bits = l.bits ∧ Tracks decoded (Bitstring.get l.bits) [] := by
  have htake : l.bits.take ((l.size + 7) / 8 + 1) = l.bits := take_of_length_le (by rw [h.bytes]; omega)
  have htake' : l.bits.take ((l.size + 7) / 8) = l.bits := take_of_length_le (Nat.le_of_eq h.bytes)
  refine ⟨⟨l.bits, l.size, purpose, List.replicate l.size false⟩, ?_, rfl, rfl, h.bytes, length_replicate, ?_, ?_⟩
  · rw [decode, encode, String.toList_ofList, Base64.decode_encode]
    dsimp only
    rw [hgzip, htake]
    dsimp only
    rw [if_neg (by rw [h.bytes]; omega), htake']
  · simp [used]
  · exact fun i => rfl

/-- A published list, decoded, agrees with the list on every status and on their count. In every run that
follows, what is handed out or turned by a decoy was not used since decoding, and each bit is what was
last set for it since decoding, or the published one. -/
theorem run_decoded {gzip : Gzip} (hgzip : gzip.Lossless) {size : ℕ} {purpose purpose' : StatusPurpose}
    {ops : List Op}
    {events : List Event} (h : (new size purpose).run ops = some (events, l)) :
    ∃ decoded, decode gzip (encode gzip l) l.size purpose' = .ok decoded ∧ decoded.size = l.size ∧
      (∀ i < l.size, decoded.get i = l.get i) ∧ decoded.countSet = l.countSet ∧
      ∀ ops' later after, decoded.run ops' = some (later, after) →
        (∀ before event rest, later = before ++ event :: rest → event.Fresh l.size (used before)) ∧
        ∀ i < l.size, after.get i = .ok (statusAfter (Bitstring.get l.bits) later i) := by
  obtain ⟨htracks, -, -, -⟩ := run_tracks (new_tracks size purpose) h
  obtain ⟨decoded, hdecoded, hsize, hbits, htracks'⟩ := decode_tracks hgzip htracks purpose'
  refine ⟨decoded, hdecoded, hsize, ?_, ?_, ?_⟩
  · intro i hi
    rw [get, get, hsize, hbits]
  · rw [countSet, countSet, hbits]
  · intro ops' later after hrun
    obtain ⟨hafter, hsize', hfresh, -⟩ := run_tracks htracks' hrun
    rw [hsize] at hfresh hsize'
    refine ⟨hfresh, fun i hi => ?_⟩
    exact hafter.get (hsize'.symm ▸ hi)

/-- Compression that stores. -/
def stored : Gzip := ⟨id, fun limit bytes => .ok (bytes.take limit)⟩

theorem run_decoded_ten :
    ∃ decoded, decode stored (encode stored ten) 10 .revocation = .ok decoded ∧ decoded.countSet = ten.countSet ∧
      ∀ later after, decoded.run [.set 4 true] = some (later, after) →
        after.get 3 = .ok (statusAfter (Bitstring.get ten.bits) later 3) := by
  obtain ⟨decoded, hdecoded, -, -, hcount, hlater⟩ :=
    @run_decoded ten stored (fun _ _ => rfl) 10 .revocation .revocation _ _ run_ten
  exact ⟨decoded, hdecoded, hcount, fun later after hrun => (hlater _ later after hrun).2 3 (by decide)⟩

/-- An index handed out before publication is handed out again, and a decoy lands on it. -/
theorem reservations_not_kept :
    ∃ l decoded, (new 1 .revocation).run [.allocateIndex 0] = some ([.allocated 0], l) ∧
      decode stored (encode stored l) 1 .revocation = .ok decoded ∧
      (∃ after, decoded.run [.allocateIndex 0] = some ([.allocated 0], after)) ∧
      ∃ after, decoded.run [.addDecoys 1 [0]] = some ([.decoys 1 [0]], after) :=
  ⟨⟨[0], 1, .revocation, [true]⟩, ⟨[0], 1, .revocation, [false]⟩, by decide +kernel, by decide +kernel,
    ⟨⟨[0], 1, .revocation, [true]⟩, by decide +kernel⟩, ⟨⟨[128], 1, .revocation, [true]⟩, by decide +kernel⟩⟩

end BitstringStatusList

end AffinidiTdk.Credentials
