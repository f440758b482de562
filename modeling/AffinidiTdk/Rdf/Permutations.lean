/-
How many permutations `hash_ndegree_quads` tries of a group. The next permutation is the smallest of the
larger ones in the lexicographic order, so none comes twice and none is left out: from the first on there
are n! of n indices, and never more than the limit.
-/
import AffinidiTdk.Lib.Panics
import AffinidiTdk.Rdf.Canonical
import Mathlib.Data.List.Permutation

namespace AffinidiTdk.Rdf

open List

variable {arr next : List ℕ} {pivot i j k : ℕ}

/-! ## The next permutation -/

theorem ascent_eq_succ (h : ascent arr k = i + 1) : i + 1 ≤ k ∧ arr.getD i 0 < arr.getD (i + 1) 0 := by
  induction k with
  | zero => cases h
  | succ k ih =>
    rw [ascent] at h
    split_ifs at h with hdown
    · obtain ⟨hle, hlt⟩ := ih h
      exact ⟨by omega, hlt⟩
    · obtain rfl : k = i := Nat.succ.inj h
      exact ⟨le_rfl, Nat.not_le.1 hdown⟩

theorem successor_spec (hi : i + 1 ≤ k) (h : pivot < arr.getD (i + 1) 0) :
    i + 1 ≤ successor arr pivot k ∧ successor arr pivot k ≤ k ∧ pivot < arr.getD (successor arr pivot k) 0 := by
  induction k with
  | zero => cases hi
  | succ k ih =>
    rw [successor]
    split_ifs with hle
    · -- the ascent lies further down, since its value is larger than the pivot
      have hne : i ≠ k := by
        rintro rfl
        exact absurd h (Nat.not_lt.2 hle)
      obtain ⟨hlow, hhigh, hlt⟩ := ih (by omega)
      exact ⟨hlow, by omega, hlt⟩
    · exact ⟨by omega, le_rfl, Nat.not_le.1 hle⟩

theorem take_swap {a b : ℕ} (hij : i + 1 ≤ j) (hi : i < arr.length) :
    ((arr.set i a).set j b).take (i + 1) = arr.take i ++ [a] := by
  rw [take_set_of_le hij, take_succ_eq_append_getElem (by rwa [length_set]), getElem_set_self,
    take_set_of_le le_rfl]

/-- The next permutation keeps the indices before the ascent, raises that one and rearranges the rest. -/
theorem nextPermutation_eq_some (h : nextPermutation arr = some next) :
    next.Perm arr ∧ arr < next := by
  unfold nextPermutation at h
  split at h
  · cases h
  · rename_i i hascent
    obtain ⟨hi, hup⟩ := ascent_eq_succ hascent
    obtain ⟨hij, hj, hlt⟩ := successor_spec hi hup
    generalize successor arr (arr.getD i 0) (arr.length - 1) = j at *
    have hil : i < arr.length := by omega
    have hjl : j < arr.length := by omega
    cases h
    rw [getD_eq_getElem _ _ hil, getD_eq_getElem _ _ hjl] at hlt ⊢
    have hswap : ((arr.set i arr[j]).set j arr[i]).Perm arr := set_set_perm hil hjl
    constructor
    · refine List.Perm.trans ?_ hswap
      conv_rhs => rw [← take_append_drop (i + 1) ((arr.set i arr[j]).set j arr[i])]
      exact (reverse_perm _).append_left _
    · have hsplit : arr = arr.take i ++ arr[i] :: arr.drop (i + 1) := by
        rw [← drop_eq_getElem_cons hil, take_append_drop]
      rw [take_swap hij hil, append_assoc]
      conv_lhs => rw [hsplit]
      exact append_left_lt (cons_lt_cons_iff.2 (.inl hlt))

/-! ## The smallest of the larger permutations -/

section Order

variable {α : Type} [LinearOrder α] {l other pre x y suf tail : List α} {p s : α}

theorem append_left_le (pre : List α) (h : x ≤ y) : pre ++ x ≤ pre ++ y := by
  rcases h.lt_or_eq with hlt | rfl
  · exact (append_left_lt hlt).le
  · exact le_rfl

theorem cons_le_cons (a : α) (h : x ≤ y) : a :: x ≤ a :: y := append_left_le [a] h

theorem le_of_perm_descending (h : l.Pairwise (· ≥ ·)) (hperm : other.Perm l) : other ≤ l := by
  induction l generalizing other with
  | nil => rw [hperm.eq_nil]
  | cons a l ih =>
    obtain ⟨hall, hrest⟩ := pairwise_cons.1 h
    cases other with
    | nil => exact absurd hperm.symm not_perm_cons_nil
    | cons b m =>
      have hle : b ≤ a := by
        rcases mem_cons.1 (hperm.subset mem_cons_self) with rfl | hb
        · exact le_rfl
        · exact hall b hb
      rcases hle.lt_or_eq with hlt | rfl
      · exact (cons_lt_cons_iff.2 (.inl hlt)).le
      · exact cons_le_cons b (ih hrest hperm.cons_inv)

theorem le_of_perm_ascending (h : l.Pairwise (· ≤ ·)) (hperm : other.Perm l) : l ≤ other := by
  induction l generalizing other with
  | nil => rw [hperm.eq_nil]
  | cons a l ih =>
    obtain ⟨hall, hrest⟩ := pairwise_cons.1 h
    cases other with
    | nil => exact absurd hperm.symm not_perm_cons_nil
    | cons b m =>
      have hle : a ≤ b := by
        rcases mem_cons.1 (hperm.subset mem_cons_self) with rfl | hb
        · exact le_rfl
        · exact hall b hb
      rcases hle.lt_or_eq with hlt | rfl
      · exact (cons_lt_cons_iff.2 (.inl hlt)).le
      · exact cons_le_cons a (ih hrest hperm.cons_inv)

theorem append_lt_cases (h : pre ++ x < other) :
    (∃ rest, other = pre ++ rest ∧ x < rest) ∨ ∀ y, pre ++ y < other := by
  induction pre generalizing other with
  | nil => exact .inl ⟨other, rfl, h⟩
  | cons a pre ih =>
    cases other with
    | nil => exact absurd h (not_lt_nil _)
    | cons b m =>
      rcases cons_lt_cons_iff.1 h with hlt | ⟨rfl, hlt⟩
      · exact .inr fun y => cons_lt_cons_iff.2 (.inl hlt)
      · rcases ih hlt with ⟨rest, rfl, hrest⟩ | hall
        · exact .inl ⟨rest, rfl, hrest⟩
        · exact .inr fun y => cons_lt_cons_iff.2 (.inr ⟨rfl, hall y⟩)

/-- The smallest larger permutation of a list whose end descends: the next larger value of the end takes the
place of the one before it, and the others follow in ascending order. -/
theorem successor_le (hsuf : suf.Pairwise (· ≥ ·)) (hs : ∀ q ∈ suf, p < q → s ≤ q) (htail : tail.Pairwise (· ≥ ·))
    (hswap : (s :: tail).Perm (p :: suf)) (hperm : other.Perm (pre ++ p :: suf)) (hlt : pre ++ p :: suf < other) :
    pre ++ s :: tail.reverse ≤ other := by
  rcases append_lt_cases hlt with ⟨rest, rfl, hrest⟩ | hall
  · refine append_left_le pre ?_
    have hperm := (perm_append_left_iff pre).1 hperm
    cases rest with
    | nil => exact absurd hrest (not_lt_nil _)
    | cons q m =>
      rcases cons_lt_cons_iff.1 hrest with hpq | ⟨rfl, hlarger⟩
      · have hq : q ∈ suf := (mem_cons.1 (hperm.subset mem_cons_self)).resolve_left hpq.ne'
        rcases (hs q hq hpq).lt_or_eq with hsq | rfl
        · exact (cons_lt_cons_iff.2 (.inl hsq)).le
        · have hm : m.Perm tail := (hperm.trans hswap.symm).cons_inv
          exact cons_le_cons s (le_of_perm_ascending (pairwise_reverse.2 htail)
            (hm.trans (reverse_perm tail).symm))
      · exact absurd (le_of_perm_descending hsuf hperm.cons_inv) hlarger.not_ge
  · exact (hall _).le

end Order

theorem descends_from_ascent {m n : ℕ} (h : ascent arr k = i) (hm : i ≤ m) (hmn : m ≤ n) (hn : n ≤ k) :
    arr.getD n 0 ≤ arr.getD m 0 := by
  induction k generalizing n with
  | zero =>
    obtain rfl : n = m := by omega
    exact le_rfl
  | succ k ih =>
    rcases hmn.lt_or_eq with hlt | rfl
    · rw [ascent] at h
      split_ifs at h with hdown
      · rcases hn.lt_or_eq with hn | rfl
        · exact ih h hmn (by omega)
        · exact hdown.trans (ih h (by omega) le_rfl)
      · omega
    · exact le_rfl

theorem le_pivot_of_successor {m : ℕ} (hm : successor arr pivot k < m) (hk : m ≤ k) : arr.getD m 0 ≤ pivot := by
  induction k with
  | zero => omega
  | succ k ih =>
    rw [successor] at hm
    split_ifs at hm with hle
    · rcases hk.lt_or_eq with hlt | rfl
      · exact ih hm (by omega)
      · exact hle
    · omega

theorem le_of_nextPermutation_eq_none (h : nextPermutation arr = none) {other : List ℕ} (hperm : other.Perm arr) :
    other ≤ arr := by
  unfold nextPermutation at h
  split at h
  · rename_i hascent
    refine le_of_perm_descending (pairwise_iff_getElem.2 fun m n hm hn hlt => ?_) hperm
    have hdescends := descends_from_ascent hascent (Nat.zero_le m) hlt.le (Nat.le_sub_one_of_lt hn)
    rwa [getD_eq_getElem _ _ hm, getD_eq_getElem _ _ hn] at hdescends
  · cases h

theorem pairwise_drop (h : ∀ m n, i ≤ m → m < n → n < arr.length → arr.getD n 0 ≤ arr.getD m 0) :
    (arr.drop i).Pairwise (· ≥ ·) := by
  rw [pairwise_iff_getElem]
  intro m n hm hn hmn
  rw [length_drop] at hm hn
  have hle := h (i + m) (i + n) (by omega) (by omega) (by omega)
  rwa [getD_eq_getElem _ _ (by omega), getD_eq_getElem _ _ (by omega), ← getElem_drop, ← getElem_drop] at hle

theorem nextPermutation_le (h : nextPermutation arr = some next) {other : List ℕ} (hperm : other.Perm arr)
    (hlt : arr < other) : next ≤ other := by
  obtain ⟨hnextPerm, -⟩ := nextPermutation_eq_some h
  unfold nextPermutation at h
  split at h
  · cases h
  · rename_i i hascent
    obtain ⟨hi, hup⟩ := ascent_eq_succ hascent
    obtain ⟨hij, hj, hpivot⟩ := successor_spec hi hup
    have hafter : ∀ m, successor arr (arr.getD i 0) (arr.length - 1) < m → m < arr.length →
        arr.getD m 0 ≤ arr.getD i 0 := fun m hm hmn => le_pivot_of_successor hm (by omega)
    have hdescends : ∀ m n, i + 1 ≤ m → m ≤ n → n < arr.length → arr.getD n 0 ≤ arr.getD m 0 :=
      fun m n hm hmn hn => descends_from_ascent hascent hm hmn (by omega)
    generalize successor arr (arr.getD i 0) (arr.length - 1) = j at *
    cases h
    have hsplit : arr = arr.take i ++ arr.getD i 0 :: arr.drop (i + 1) := by
      rw [getD_eq_getElem _ _ (by omega), ← drop_eq_getElem_cons, take_append_drop]
    rw [take_swap hij (by omega), append_assoc] at hnextPerm ⊢
    have hvalue : ∀ m, i + 1 ≤ m → m < arr.length →
        ((arr.set i (arr.getD j 0)).set j (arr.getD i 0)).getD m 0 = if m =
          j then arr.getD i 0 else arr.getD m 0 := by
      intro m hm hmn
      rw [getD_eq_getElem?_getD, getElem?_set, getElem?_set_ne (by omega), length_set]
      split_ifs with hjm hjn hmj
      all_goals first | rfl | omega
    -- the pivot takes the place of its successor, so what follows still descends
    have htail : (((arr.set i (arr.getD j 0)).set j (arr.getD i 0)).drop (i + 1)).Pairwise (· ≥ ·) := by
      refine pairwise_drop fun m n hm hmn hn => ?_
      rw [length_set, length_set] at hn
      rw [hvalue m hm (by omega), hvalue n (by omega) hn]
      split_ifs with hnj hmj hmj
      · omega
      · exact hpivot.le.trans (hnj ▸ hdescends m n hm hmn.le hn)
      · exact hafter n (by omega) hn
      · exact hdescends m n hm hmn.le hn
    have hswap : (arr.getD j 0 :: ((arr.set i (arr.getD j 0)).set j (arr.getD i 0)).drop (i + 1)).Perm
        (arr.getD i 0 :: arr.drop (i + 1)) := by
      refine List.Perm.trans ((reverse_perm _).symm.cons _) ((perm_append_left_iff (arr.take i)).1 ?_)
      rwa [← hsplit]
    have hs : ∀ q ∈ arr.drop (i + 1), arr.getD i 0 < q → arr.getD j 0 ≤ q := by
      intro q hq hpq
      obtain ⟨m, hm, rfl⟩ := mem_iff_getElem.1 hq
      rw [length_drop] at hm
      rw [getElem_drop, ← getD_eq_getElem _ 0] at hpq ⊢
      rcases Nat.lt_or_ge j (i + 1 + m) with hjm | hmj
      · exact absurd hpq (hafter _ hjm (by omega)).not_gt
      · exact hdescends _ _ (by omega) hmj (by omega)
    rw [hsplit] at hperm hlt
    exact successor_le (pairwise_drop fun m n hm hmn hn => hdescends m n hm hmn.le hn) hs htail hswap hperm hlt

/-! ## The permutations that are tried -/

/-- The permutations from the given one on, at most so many. -/
def permutationsFrom : ℕ → List ℕ → List (List ℕ)
  | 0, _ => []
  | left + 1, perm =>
    perm :: match nextPermutation perm with
      | none => []
      | some next => permutationsFrom left next

/-- The last of the permutations was reached. -/
def Exhausted (perms : List (List ℕ)) : Prop := perms.getLast?.map nextPermutation = some none

instance : DecidablePred Exhausted := fun _ => inferInstanceAs (Decidable (_ = _))

theorem exhausted_cons {perm next : List ℕ} (h : nextPermutation perm = some next) (perms : List (List ℕ)) :
    Exhausted (perm :: perms) ↔ Exhausted perms := by
  unfold Exhausted
  cases perms with
  | nil => simp [h]
  | cons other perms => rw [getLast?_cons_cons]

theorem length_permutationsFrom_le (left : ℕ) (perm : List ℕ) : (permutationsFrom left perm).length ≤ left := by
  induction left generalizing perm with
  | zero => exact le_rfl
  | succ left ih =>
    rw [permutationsFrom, length_cons]
    split
    · exact Nat.succ_le_succ (Nat.zero_le _)
    · exact Nat.succ_le_succ (ih _)

theorem permutationsFrom_spec (left : ℕ) (perm : List ℕ) :
    (permutationsFrom left perm).Pairwise (· < ·) ∧
      ∀ other ∈ permutationsFrom left perm, other.Perm perm ∧ perm ≤ other := by
  induction left generalizing perm with
  | zero => exact ⟨List.Pairwise.nil, fun other hother => absurd hother not_mem_nil⟩
  | succ left ih =>
    rw [permutationsFrom]
    split
    · refine ⟨pairwise_singleton _ _, fun other hother => ?_⟩
      obtain rfl := mem_singleton.1 hother
      exact ⟨List.Perm.refl _, le_rfl⟩
    · rename_i next hnext
      obtain ⟨hperm, hlt⟩ := nextPermutation_eq_some hnext
      obtain ⟨hincreasing, hall⟩ := ih next
      refine ⟨pairwise_cons.2 ⟨fun other hother => hlt.trans_le (hall other hother).2, hincreasing⟩, ?_⟩
      intro other hother
      rcases mem_cons.1 hother with rfl | hother
      · exact ⟨List.Perm.refl _, le_rfl⟩
      · obtain ⟨hotherPerm, hle⟩ := hall other hother
        exact ⟨hotherPerm.trans hperm, (hlt.trans_le hle).le⟩

/-- Of n indices at most n! permutations are tried. -/
theorem length_permutationsFrom_le_factorial (left n : ℕ) :
    (permutationsFrom left (List.range n)).length ≤ n.factorial := by
  obtain ⟨hincreasing, hall⟩ := permutationsFrom_spec left (List.range n)
  have hnodup : (permutationsFrom left (List.range n)).Nodup := hincreasing.imp fun hlt => hlt.ne
  have hsub : permutationsFrom left (List.range n) ⊆ (List.range n).permutations := fun perm hperm =>
    mem_permutations.2 (hall perm hperm).1
  have hle := (subperm_of_subset hnodup hsub).length_le
  rwa [length_permutations, length_range] at hle

theorem exhausted_of_length_lt {left : ℕ} {perm : List ℕ} (h : (permutationsFrom left perm).length < left) :
    Exhausted (permutationsFrom left perm) := by
  induction left generalizing perm with
  | zero => cases h
  | succ left ih =>
    rw [permutationsFrom, length_cons] at h
    rw [permutationsFrom]
    cases hnext : nextPermutation perm with
    | none => exact congrArg some hnext
    | some next =>
      simp only [hnext] at h
      exact (exhausted_cons hnext _).2 (ih (Nat.lt_of_succ_lt_succ h))

theorem mem_permutationsFrom {left : ℕ} {perm other : List ℕ} (h : Exhausted (permutationsFrom left perm))
    (hperm : other.Perm perm) (hle : perm ≤ other) : other ∈ permutationsFrom left perm := by
  induction left generalizing perm with
  | zero => cases h
  | succ left ih =>
    rw [permutationsFrom] at h ⊢
    rcases hle.lt_or_eq with hlt | rfl
    · refine mem_cons_of_mem _ ?_
      cases hnext : nextPermutation perm with
      | none => exact absurd (le_of_nextPermutation_eq_none hnext hperm) hlt.not_ge
      | some next =>
        simp only [hnext] at h
        have hnextPerm := (nextPermutation_eq_some hnext).1
        exact ih ((exhausted_cons hnext _).1 h) (hperm.trans hnextPerm.symm) (nextPermutation_le hnext hperm hlt)
    · exact mem_cons_self

/-! ## The indices of the loops -/

namespace Checked

open Panics

/-- `while i > 0 && arr[i - 1] >= arr[i]`. -/
def ascent (arr : List ℕ) : ℕ → Routine Empty ℕ
  | 0 => pure 0
  | i + 1 => do
    if (← index arr i) ≥ (← index arr (i + 1)) then ascent arr i else pure (i + 1)

/-- `while arr[j] <= arr[i]`. -/
def successor (arr : List ℕ) (i : ℕ) : ℕ → Routine Empty ℕ
  | 0 => do
    if (← index arr 0) ≤ (← index arr i) then usizeSub true 0 1 else pure 0
  | j + 1 => do
    if (← index arr (j + 1)) ≤ (← index arr i) then successor arr i j else pure (j + 1)

def nextPermutation (arr : List ℕ) : Routine Empty (Option (List ℕ)) := do
  if arr.length ≤ 1 then pure none
  else
    let last ← usizeSub true arr.length 1
    let i ← ascent arr last
    if i = 0 then pure none
    else
      let i ← usizeSub true i 1
      let j ← successor arr i last
      let swapped := (arr.set i (← index arr j)).set j (← index arr i)
      pure (some (swapped.take (i + 1) ++ (← slice swapped (i + 1) swapped.length).reverse))

theorem ascent_runs (h : k < arr.length ∨ k = 0) : Runs (ascent arr k) (.ok (Rdf.ascent arr k)) := by
  induction k with
  | zero => exact .pure 0
  | succ k ih =>
    have hk : k + 1 < arr.length := by omega
    rw [ascent, Rdf.ascent, index_eq (d := 0) (Nat.lt_of_succ_lt hk), index_eq (d := 0) hk, pure_bind, pure_bind]
    split_ifs
    · exact ih (by omega)
    · exact .pure _

theorem successor_runs (hi : i + 1 ≤ k) (hk : k < arr.length) (h : arr.getD i 0 < arr.getD (i + 1) 0) :
    Runs (successor arr i k) (.ok (Rdf.successor arr (arr.getD i 0) k)) := by
  induction k with
  | zero => cases hi
  | succ k ih =>
    rw [successor, Rdf.successor, index_eq (d := 0) hk, index_eq (d := 0) (by omega), pure_bind, pure_bind]
    split_ifs with hle
    · have hne : i ≠ k := by
        rintro rfl
        exact absurd h (Nat.not_lt.2 hle)
      exact ih (by omega) (by omega)
    · exact .pure _

/-- No index is out of range. -/
theorem nextPermutation_runs (arr : List ℕ) : Runs (nextPermutation arr) (.ok (Rdf.nextPermutation arr)) := by
  unfold nextPermutation Rdf.nextPermutation
  split_ifs with hshort
  · have hlast : arr.length - 1 = 0 := by omega
    rw [hlast]
    exact .pure none
  · rw [usizeSub_eq (by omega), pure_bind]
    refine (ascent_runs (by omega)).ok_bind ?_
    split_ifs with hzero
    · rw [hzero]
      exact .pure none
    · obtain ⟨i, hi⟩ := Nat.exists_eq_succ_of_ne_zero hzero
      obtain ⟨hil, hup⟩ := ascent_eq_succ hi
      obtain ⟨hij, hj, -⟩ := successor_spec hil hup
      simp only [hi]
      rw [usizeSub_eq (by omega), pure_bind]
      refine (successor_runs hil (by omega) hup).ok_bind ?_
      rw [index_eq (d := 0) (by omega), index_eq (d := 0) (by omega), pure_bind, pure_bind,
        slice_length (by rw [length_set, length_set]; omega), pure_bind]
      exact .pure _

end Checked

/-- From the identity on, until there is no next one, each of the n! permutations comes once, in increasing
order, and no index is out of range. -/
theorem nextPermutation_enumerates (n more : ℕ) :
    (let visited := permutationsFrom (n.factorial + 1 + more) (List.range n)
    Exhausted visited ∧ visited.Pairwise (· < ·) ∧ visited.Perm (List.range n).permutations ∧
      visited.length = n.factorial ∧
      ∀ arr, Panics.Runs (Checked.nextPermutation arr) (.ok (nextPermutation arr))) := by
  intro visited
  have hexhausted : Exhausted visited := exhausted_of_length_lt <| by
    have hle := length_permutationsFrom_le_factorial (n.factorial + 1 + more) n
    omega
  obtain ⟨hincreasing, hall⟩ := permutationsFrom_spec (n.factorial + 1 + more) (List.range n)
  have hvisited : visited.Perm (List.range n).permutations := by
    refine (perm_ext_iff_of_nodup (hincreasing.imp fun hlt => hlt.ne)
      (nodup_permutations _ nodup_range)).2 fun perm => ?_
    rw [mem_permutations]
    refine ⟨fun hperm => (hall perm hperm).1, fun hperm => mem_permutationsFrom hexhausted hperm ?_⟩
    exact le_of_perm_ascending (pairwise_lt_range.imp le_of_lt) hperm
  refine ⟨hexhausted, hincreasing, hvisited, ?_, Checked.nextPermutation_runs⟩
  rw [hvisited.length_eq, length_permutations, length_range]

/-- What the loop gives when it has tried these permutations. -/
def afterPermutations (left : ℕ) (perms : List (List ℕ)) (choice : Choice) : Except Halt (Choice × ℕ) :=
  if Exhausted perms then pure (choice, left - perms.length)
  else throw (.error (.canonicalizationError s!"exceeded maximum permutations ({maxPermutations}) — possible DoS"))

theorem afterPermutations_cons {perm next : List ℕ} (h : nextPermutation perm = some next) (left : ℕ)
    (perms : List (List ℕ)) : afterPermutations (left + 1) (perm :: perms) = afterPermutations left perms := by
  funext choice
  simp only [afterPermutations, exhausted_cons h, length_cons, Nat.add_sub_add_right]

theorem permutationLoop_eq (canonical : IdentifierIssuer) (recurse : Recursion) (issuer : IdentifierIssuer)
    (group : List Text) (left : ℕ) (perm : List ℕ) (choice : Choice) :
    permutationLoop canonical recurse issuer group left perm choice =
      ((permutationsFrom left perm).foldlM
        (fun choice perm => tryPermutation canonical recurse issuer (perm.filterMap fun idx => group[idx]?) choice)
        choice >>= afterPermutations left (permutationsFrom left perm)) := by
  induction left generalizing perm choice with
  | zero => rfl
  | succ left ih =>
    rw [permutationLoop, permutationsFrom]
    cases hnext : nextPermutation perm with
    | none =>
      have hlast : Exhausted [perm] := congrArg some hnext
      rw [foldlM_cons, bind_assoc]
      refine bind_congr fun choice => ?_
      show pure (choice, left) = afterPermutations (left + 1) [perm] choice
      rw [afterPermutations, if_pos hlast]
      rfl
    | some next =>
      dsimp only
      rw [foldlM_cons, bind_assoc, afterPermutations_cons hnext]
      exact bind_congr fun choice => ih next choice

end AffinidiTdk.Rdf
