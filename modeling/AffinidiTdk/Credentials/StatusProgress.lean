/-
Does `add_decoys` end? Its loop draws an index and counts it when it is free, so it waits for free
indices. As long as no more decoys are asked for than indices are free, some draws end the loop from
each of its states; one decoy more, and no draws do.
-/
import AffinidiTdk.Credentials.StatusRuns

namespace AffinidiTdk.Credentials

open List

namespace BitstringStatusList

variable {l after : BitstringStatusList} {index count : ℕ}

/-! ## Reachable lists -/

/-- A list that is new or decoded, or what a call leaves of such a list. -/
inductive Reachable : BitstringStatusList → Prop
  | new (size : ℕ) (purpose : StatusPurpose) : Reachable (new size purpose)
  | decode {gzip : Gzip} {encoded : String} {size : ℕ} {purpose : StatusPurpose} {l : BitstringStatusList} :
      decode gzip encoded size purpose = .ok l → Reachable l
  | exec {l after : BitstringStatusList} {op : Op} {event : Event} :
      Reachable l → l.exec op = some (event, after) → Reachable after

theorem tracks_of_decode {gzip : Gzip} {encoded : String} {size : ℕ} {purpose : StatusPurpose}
    (h : decode gzip encoded size purpose = .ok l) : Tracks l (Bitstring.get l.bits) [] := by
  unfold decode at h
  split at h
  · cases h
  · dsimp only at h
    split at h
    · cases h
    · rename_i bits hbits
      split_ifs at h with hshort
      cases h
      exact ⟨length_take_of_le (Nat.not_lt.1 hshort), length_replicate, by simp [used], fun i => rfl⟩

theorem Reachable.tracks (h : Reachable l) : ∃ base events, Tracks l base events := by
  induction h with
  | new size purpose => exact ⟨_, _, new_tracks size purpose⟩
  | decode hdecode => exact ⟨_, _, tracks_of_decode hdecode⟩
  | exec _ hexec ih =>
    obtain ⟨base, events, htracks⟩ := ih
    exact ⟨base, _, (exec_tracks htracks hexec).1⟩

/-! ## The loop -/

theorem available_addDecoy (hlength : l.assigned.length = l.size) (hindex : index ∈ l.available) :
    (l.addDecoy index).available.length + 1 = l.available.length := by
  have hlt := (mem_available.1 hindex).1
  have hnodup : l.available.Nodup := nodup_range.filter _
  have hrest : (l.addDecoy index).available = l.available.erase index := by
    rw [hnodup.erase_eq_filter, available, available, filter_filter]
    refine filter_congr fun i hi => ?_
    rw [isAssigned_addDecoy (by rw [hlength]; exact hlt)]
    by_cases heq : i = index
    · simp [heq]
    · simp [heq]
  have hpos := length_pos_of_mem hindex
  rw [hrest, length_erase_of_mem hindex]
  omega

theorem exists_draws (hlength : l.assigned.length = l.size) (hcount : count ≤ l.available.length) :
    ∃ draws, (∀ d ∈ draws, d < l.size) ∧ (l.addDecoys count draws).isSome := by
  induction count generalizing l with
  | zero => exact ⟨[], fun d hd => absurd hd not_mem_nil, rfl⟩
  | succ count ih =>
    obtain ⟨index, hindex⟩ := exists_mem_of_length_pos (Nat.zero_lt_of_lt hcount)
    obtain ⟨hlt, hfree⟩ := mem_available.1 hindex
    have hrest := available_addDecoy hlength hindex
    have hlength' : (l.addDecoy index).assigned.length = (l.addDecoy index).size := length_set.trans hlength
    obtain ⟨draws, hdraws, hends⟩ := ih hlength' (by omega)
    refine ⟨index :: draws, forall_mem_cons.2 ⟨hlt, hdraws⟩, ?_⟩
    rw [addDecoys, if_neg (by rw [hfree]; exact Bool.false_ne_true)]
    exact hends

/-- From every state of the loop some draws end it: each index that is counted is one free index less,
and one decoy less to go. -/
theorem exists_draws_after {picks : List ℕ} (hlength : l.assigned.length = l.size)
    (hcount : count ≤ l.available.length) (hpicks : ∀ d ∈ picks, d < l.size) :
    ∃ more, (∀ d ∈ more, d < l.size) ∧ (l.addDecoys count (picks ++ more)).isSome := by
  induction picks generalizing l count with
  | nil => exact exists_draws hlength hcount
  | cons index picks ih =>
    obtain ⟨hlt, hrest⟩ := forall_mem_cons.1 hpicks
    cases count with
    | zero => exact ⟨[], fun d hd => absurd hd not_mem_nil, rfl⟩
    | succ count =>
      by_cases hassigned : l.isAssigned index = true
      · obtain ⟨more, hmore, hends⟩ := ih hlength hcount hrest
        refine ⟨more, hmore, ?_⟩
        rw [cons_append, addDecoys, if_pos hassigned]
        exact hends
      · have hindex := mem_available.2 ⟨hlt, Bool.not_eq_true _ ▸ hassigned⟩
        have hfewer := available_addDecoy hlength hindex
        have hlength' : (l.addDecoy index).assigned.length = (l.addDecoy index).size := length_set.trans hlength
        obtain ⟨more, hmore, hends⟩ := ih hlength' (show count ≤ _ by omega) hrest
        refine ⟨more, hmore, ?_⟩
        rw [cons_append, addDecoys, if_neg hassigned]
        exact hends

theorem count_le_available {base : ℕ → Bool} {events : List Event} {draws : List ℕ} (htracks : Tracks l base events)
    (hdraws : ∀ d ∈ draws, d < l.size) (h : (l.addDecoys count draws).isSome) : count ≤ l.available.length := by
  obtain ⟨after, hafter⟩ := Option.isSome_iff_exists.1 h
  obtain ⟨landed, hcount, hnodup, hlanded, -⟩ := addDecoys_eq_some htracks.room htracks.length hdraws hafter
  rw [← hcount]
  exact (subperm_of_subset hnodup fun i hi => mem_available.2 (hlanded i hi)).length_le

/-- On every reachable list, `add_decoys` can end from each state of its loop, and has an index to draw
whenever it draws, exactly when no more decoys are asked for than indices are free. -/
theorem addDecoys_ends_iff (h : Reachable l) :
    ((∀ picks, (∀ d ∈ picks, d < l.size) →
        ∃ more, (∀ d ∈ more, d < l.size) ∧ (l.addDecoys count (picks ++ more)).isSome) ∧ (0 < count → 0 < l.size)) ↔
      count ≤ l.available.length := by
  obtain ⟨base, events, htracks⟩ := h.tracks
  constructor
  · rintro ⟨hends, -⟩
    obtain ⟨draws, hdraws, hsome⟩ := hends [] fun d hd => absurd hd not_mem_nil
    exact count_le_available htracks hdraws hsome
  · intro hcount
    refine ⟨fun picks => exists_draws_after htracks.length hcount, fun hpos => ?_⟩
    have hsize : l.available.length ≤ l.size := (length_filter_le _ _).trans_eq length_range
    omega

/-- One index is allocated and another is revoked. -/
theorem addDecoys_ends_ten : ∃ l : BitstringStatusList, l.available = [0, 1, 2, 3, 5, 6, 8, 9] ∧
    (((∀ picks, (∀ d ∈ picks, d < l.size) →
        ∃ more, (∀ d ∈ more, d < l.size) ∧ (l.addDecoys 3 (picks ++ more)).isSome) ∧ (0 < 3 → 0 < l.size)) ↔
      3 ≤ l.available.length) := by
  have hallocated := @Reachable.exec _ _ (.allocateIndex 4) _ (.new 10 .revocation) rfl
  have hrevoked := @Reachable.exec _ _ (.set 7 true) _ hallocated rfl
  exact ⟨_, by decide +kernel, addDecoys_ends_iff hrevoked⟩

/-- Two decoys on a list of one: whatever is drawn, the loop goes on. -/
theorem addDecoys_endless :
    ¬∀ (l : BitstringStatusList) (count : ℕ), Reachable l →
      ∃ draws, (∀ d ∈ draws, d < l.size) ∧ (l.addDecoys count draws).isSome := by
  intro hall
  obtain ⟨draws, hdraws, hends⟩ := hall _ 2 (.new 1 .revocation)
  exact absurd (count_le_available (new_tracks 1 .revocation) hdraws hends) (by decide)

end BitstringStatusList

end AffinidiTdk.Credentials
