/-
Paging through an ordered list with a cursor: the id a page ends with is where the next one starts, until a page
is empty.
-/
import Mathlib.Data.List.Basic
import Mathlib.Order.Lattice

namespace Paging

open List

variable {κ β γ : Type} [LinearOrder κ]

/-- The entries past a cursor; all of them when there is none. -/
def past (entries : List (κ × β)) : Option κ → List (κ × β)
  | none => entries
  | some cursor => entries.filter fun e => decide (cursor < e.1)

/-- What a reader sees who feeds the last id of each page back until a page is empty. -/
inductive Visits (page : Option κ → List (κ × γ)) : Option κ → List (κ × γ) → Prop
  | stop {start : Option κ} (h : page start = []) : Visits page start []
  | next {start : Option κ} {last : κ × γ} {rest : List (κ × γ)} (h : (page start).getLast? = some last)
      (hrest : Visits page (some last.1) rest) : Visits page start (page start ++ rest)

variable {page : Option κ → List (κ × γ)} {start : Option κ}

omit [LinearOrder κ] in
theorem Visits.unique {out out' : List (κ × γ)} (h : Visits page start out) (h' : Visits page start out') :
    out = out' := by
  induction h generalizing out' with
  | stop hempty =>
    cases h' with
    | stop _ => rfl
    | next hlast _ =>
      rw [hempty] at hlast
      cases hlast
  | next hlast _ ih =>
    cases h' with
    | stop hempty =>
      rw [hempty] at hlast
      cases hlast
    | next hlast' hrest' =>
      rw [hlast] at hlast'
      cases hlast'
      rw [ih hrest']

variable {entries : List (κ × β)}

section

variable (hsorted : entries.Pairwise fun a b => a.1 < b.1)
include hsorted

theorem past_of_append {front rest : List (κ × β)} {last : κ × β}
    (h : past entries start = front ++ last :: rest) : past entries (some last.1) = rest := by
  have hpast : (past entries start).Pairwise fun a b => a.1 < b.1 := by
    cases start with
    | none => exact hsorted
    | some cursor => exact hsorted.sublist filter_sublist
  have hsame : past entries (some last.1) = (past entries start).filter fun e => decide (last.1 < e.1) := by
    cases start with
    | none => rfl
    | some cursor =>
      have hlast : cursor < last.1 := by
        have hmem : last ∈ past entries (some cursor) := by simp [h]
        simpa using (mem_filter.1 hmem).2
      rw [past, past, filter_filter]
      refine filter_congr fun e _ => ?_
      by_cases he : last.1 < e.1
      · simp [he, lt_trans hlast he]
      · simp [he]
  rw [hsame, h]
  rw [h, pairwise_append, pairwise_cons] at hpast
  obtain ⟨-, ⟨hrest, -⟩, hfront⟩ := hpast
  have hdrop : front.filter (fun e => decide (last.1 < e.1)) = [] := by
    rw [filter_eq_nil_iff]
    intro e he
    simpa using le_of_lt (hfront e he last mem_cons_self)
  have hkeep : rest.filter (fun e => decide (last.1 < e.1)) = rest := by
    rw [filter_eq_self]
    intro e he
    simpa using hrest e he
  rw [filter_append, hdrop, nil_append, filter_cons_of_neg (by simp), hkeep]

/-- A cursor that a reader can have: none, or the id of an entry. -/
def Cursor (entries : List (κ × β)) (start : Option κ) : Prop := ∀ cursor, start = some cursor → ∃ e ∈ entries,
    e.1 = cursor

/-- Pages that are beginnings of what is left, and empty only when nothing is, show every entry once, in order. -/
theorem visits_past {show_ : κ × β → γ} (size : Option κ → ℕ)
    (hpage : ∀ start, Cursor entries start → page start = ((past entries start).take (size start)).map fun e =>
    (e.1, show_ e)) (hsize : ∀ start, past entries start ≠ [] → 0 < size start) (hstart : Cursor entries start) :
    Visits page start ((past entries start).map fun e => (e.1, show_ e)) := by
  induction hlength : (past entries start).length using Nat.strongRecOn generalizing start with
  | _ n ih =>
    cases hpast : past entries start with
    | nil => exact .stop (by rw [hpage start hstart, hpast]; simp)
    | cons first others =>
      have hpos := hsize start (by simp [hpast])
      have hne : (first :: others).take (size start) ≠ [] := by
        rw [ne_eq, take_eq_nil_iff]
        simp [Nat.ne_of_gt hpos]
      obtain ⟨front, last, htake⟩ : ∃ front last, (first :: others).take (size start) = front ++ [last] :=
        ⟨_, _, (dropLast_concat_getLast hne).symm⟩
      have hsplit : past entries start = front ++ last :: (first :: others).drop (size start) := by
        calc past entries start = (first :: others).take (size start) ++ (first :: others).drop (size start) := by
              rw [take_append_drop, hpast]
          _ = _ := by rw [htake, append_assoc, singleton_append]
      have hrest := past_of_append hsorted hsplit
      have hshorter : (past entries (some last.1)).length < n := by
        rw [← hlength, hrest, hsplit]
        simp
        omega
      have hlast : (page start).getLast? = some (last.1, show_ last) := by
        rw [hpage start hstart, hpast, htake]
        simp
      have hmem : last ∈ entries := by
        have hin : last ∈ past entries start := by simp [hsplit]
        cases start with
        | none => exact hin
        | some cursor => exact mem_of_mem_filter hin
      have hcursor : Cursor entries (some last.1) := by
        rintro cursor heq
        exact ⟨last, hmem, Option.some.inj heq⟩
      have hwhole := Visits.next hlast (ih _ hshorter hcursor rfl)
      rw [hpage start hstart, hpast, hrest, ← map_append, take_append_drop] at hwhole
      exact hwhole

/-! ## A cursor that is scanned and then left out -/

/-- The entries from a cursor on, its own included. -/
def from_ (entries : List (κ × β)) : Option κ → List (κ × β)
  | none => entries
  | some cursor => entries.filter fun e => decide (cursor ≤ e.1)

/-- The entry that the cursor names, if it is there. -/
def named (entries : List (κ × β)) (start : Option κ) : List (κ × β) :=
    entries.filter fun e => decide (start = some e.1)

theorem length_named_le_one (start : Option κ) : (named entries start).length ≤ 1 := by
  have hpair : (named entries start).Pairwise fun a b => a.1 < b.1 := hsorted.sublist filter_sublist
  rcases hnamed : named entries start with _ | ⟨a, _ | ⟨b, rest⟩⟩
  · exact Nat.zero_le 1
  · exact Nat.le_refl 1
  · have hmem : ∀ e ∈ named entries start, start = some e.1 := fun e he => by simpa using (mem_filter.1 he).2
    rw [hnamed] at hpair hmem
    have hlt := rel_of_pairwise_cons hpair mem_cons_self
    have heq : a.1 = b.1 := Option.some.inj ((hmem a (by simp)).symm.trans (hmem b (by simp)))
    exact absurd (heq ▸ hlt) (lt_irrefl _)

theorem from_eq (start : Option κ) : from_ entries start = named entries start ++ past entries start := by
  cases start with
  | none =>
    have hnamed : named entries none = [] := by simp [named]
    rw [hnamed]
    rfl
  | some cursor =>
    show entries.filter _ = entries.filter _ ++ entries.filter _
    induction entries with
    | nil => rfl
    | cons e entries ih =>
      obtain ⟨hfirst, hrest⟩ := pairwise_cons.1 hsorted
      have ih := ih hrest
      rcases lt_trichotomy cursor e.1 with hlt | heq | hgt
      · -- the cursor's entry would stand before this one
        have hnone : entries.filter (fun e => decide (some cursor = some e.1)) = [] := by
          rw [filter_eq_nil_iff]
          intro e' he'
          have := lt_trans hlt (hfirst e' he')
          simp [ne_of_lt this]
        rw [hnone, nil_append] at ih
        rw [filter_cons_of_pos (by simpa using le_of_lt hlt), filter_cons_of_neg (by simp [ne_of_lt hlt]),
          filter_cons_of_pos (by simpa using hlt), hnone, nil_append, ih]
      · rw [filter_cons_of_pos (by simp [heq]), filter_cons_of_pos (by simp [heq]),
          filter_cons_of_neg (by simp [heq]), ih]
        rfl
      · rw [filter_cons_of_neg (by simpa using hgt), filter_cons_of_neg (by simp [ne_of_gt hgt]),
          filter_cons_of_neg (by simpa using le_of_lt hgt), ih]

/-- A page that counts the cursor's own entry and then leaves it out is short by that entry. -/
theorem take_from (start : Option κ) (limit : ℕ) : ((from_ entries start).take limit).filter
    (fun e => decide (start ≠ some e.1)) = (past entries start).take (limit - (named entries start).length) := by
  have hdrop : ∀ n, ((named entries start).take n).filter (fun e => decide (start ≠ some e.1)) = [] := by
    intro n
    rw [filter_eq_nil_iff]
    intro e he
    have hmem := (mem_filter.1 (mem_of_mem_take he)).2
    simpa using hmem
  have hkeep : ∀ n, ((past entries start).take n).filter (fun e => decide (start ≠ some e.1)) =
    (past entries start).take n := by
    intro n
    rw [filter_eq_self]
    intro e he
    have hmem := mem_of_mem_take he
    cases start with
    | none => simp
    | some cursor =>
      have hlt : cursor < e.1 := by simpa using (mem_filter.1 hmem).2
      simp [ne_of_lt hlt]
  rw [from_eq hsorted, take_append, filter_append, hdrop, nil_append, hkeep]

end

/-! ## Paging by position -/

/-- The entries from a position on, so many at most, and the position that comes next if there are more. -/
def pageAt {α : Type} (size : ℕ) (entries : List α) (cursor : ℕ) : List α × Option ℕ :=
  let page := (entries.drop cursor).take size
  (page, if cursor + page.length ≥ entries.length then none else some (cursor + page.length))

/-- What a reader sees who follows the positions until there is none. -/
inductive Reads {α : Type} (page : ℕ → List α × Option ℕ) : ℕ → List α → Prop
  | last {cursor : ℕ} (h : (page cursor).2 = none) : Reads page cursor (page cursor).1
  | more {cursor next : ℕ} {rest : List α} (h : (page cursor).2 = some next) (hrest : Reads page next rest) :
    Reads page cursor ((page cursor).1 ++ rest)

/-- Pages that hold something show every entry from the position on, once and in order. -/
theorem reads_pageAt {α : Type} {size : ℕ} (hsize : 0 < size) (entries : List α) (cursor : ℕ) :
    Reads (pageAt size entries) cursor (entries.drop cursor) := by
  induction hleft : entries.length - cursor using Nat.strongRecOn generalizing cursor with
  | _ left ih =>
    have hlength : (pageAt size entries cursor).1.length = min size (entries.length - cursor) := by
      simp [pageAt]
    by_cases hend : cursor + (pageAt size entries cursor).1.length ≥ entries.length
    · have hwhole : (pageAt size entries cursor).1 = entries.drop cursor := by
        refine take_of_length_le ?_
        rw [length_drop]
        omega
      have hlast := @Reads.last α (pageAt size entries) cursor (if_pos hend)
      rwa [hwhole] at hlast
    · have hnext : (pageAt size entries cursor).2 = some (cursor + (pageAt size entries cursor).1.length) :=
        if_neg hend
      have hrest := ih _ (by omega) (cursor + (pageAt size entries cursor).1.length) rfl
      have hmore := Reads.more hnext hrest
      have hfull : (pageAt size entries cursor).1.length = size := by omega
      rw [hfull, ← drop_drop] at hmore
      have hjoin : (pageAt size entries cursor).1 ++ (entries.drop cursor).drop size = entries.drop cursor :=
        take_append_drop size (entries.drop cursor)
      rwa [hjoin] at hmore

end Paging
