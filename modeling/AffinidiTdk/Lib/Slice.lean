/-
Ranges of a list, as a decoder reads them that keeps a position in its input: the checked range
access of Rust's slices, and the parts that stand at a position. An encoding that is a sequence of
parts is read back part by part.
-/
import Mathlib.Data.List.Basic

namespace Slice

open List

variable {α : Type*}

/-- `list.get(start..stop)`. -/
def get? (list : List α) (start stop : ℕ) : Option (List α) :=
  if start ≤ stop ∧ stop ≤ list.length then some ((list.drop start).take (stop - start)) else none

/-- `list.get(start..)`. -/
def from? (list : List α) (start : ℕ) : Option (List α) :=
  if start ≤ list.length then some (list.drop start) else none

/-- The part stands in the list at a position. -/
def At (list : List α) (pos : ℕ) (part : List α) : Prop :=
  ∃ before after, list = before ++ (part ++ after) ∧ before.length = pos

variable {list part part₁ part₂ after : List α} {pos : ℕ}

theorem get?_eq_some_iff {start stop : ℕ} :
    get? list start stop = some part ↔
      start ≤ stop ∧ stop ≤ list.length ∧ part = (list.drop start).take (stop - start) := by
  unfold get?
  by_cases hrange : start ≤ stop ∧ stop ≤ list.length
  · rw [if_pos hrange, Option.some.injEq, eq_comm]
    exact ⟨fun heq => ⟨hrange.1, hrange.2, heq⟩, fun h => h.2.2⟩
  · rw [if_neg hrange]
    exact iff_of_false (fun h => by cases h) fun h => hrange ⟨h.1, h.2.1⟩

theorem length_of_get? {start stop : ℕ} (h : get? list start stop = some part) : part.length = stop - start := by
  obtain ⟨hle, hstop, rfl⟩ := get?_eq_some_iff.1 h
  rw [length_take, length_drop]
  omega

theorem from?_eq_some_iff : from? list pos = some part ↔ pos ≤ list.length ∧ part = list.drop pos := by
  unfold from?
  by_cases hpos : pos ≤ list.length
  · rw [if_pos hpos, Option.some.injEq, eq_comm, and_iff_right hpos]
  · rw [if_neg hpos]
    exact iff_of_false (fun h => by cases h) fun h => hpos h.1

theorem take_append_drop_take (list : List α) {start stop : ℕ} (h : start ≤ stop) :
    list.take start ++ (list.take stop).drop start = list.take stop := by
  have hsplit := take_append_drop start (list.take stop)
  rwa [take_take, Nat.min_eq_left h] at hsplit

theorem at_self (list after : List α) : At (list ++ after) 0 list := ⟨[], after, rfl, rfl⟩

/-- The first part is where the whole is. -/
theorem At.left (h : At list pos (part₁ ++ part₂)) : At list pos part₁ := by
  obtain ⟨before, after, rfl, hpos⟩ := h
  exact ⟨before, part₂ ++ after, by rw [append_assoc], hpos⟩

/-- The second part is where the first one ends. -/
theorem At.right (h : At list pos (part₁ ++ part₂)) : At list (pos + part₁.length) part₂ := by
  obtain ⟨before, after, rfl, hpos⟩ := h
  refine ⟨before ++ part₁, after, by simp only [append_assoc], ?_⟩
  rw [length_append, hpos]

theorem At.take_drop (h : At list pos part) : (list.drop pos).take part.length = part := by
  obtain ⟨before, after, rfl, rfl⟩ := h
  rw [drop_left, take_left]

theorem At.add_length_le (h : At list pos part) : pos + part.length ≤ list.length := by
  obtain ⟨before, after, rfl, rfl⟩ := h
  simp only [length_append]
  omega

theorem At.get? (h : At list pos part) : Slice.get? list pos (pos + part.length) = some part := by
  rw [Slice.get?, if_pos ⟨Nat.le_add_right _ _, h.add_length_le⟩, Nat.add_sub_cancel_left, h.take_drop]

theorem At.get?_right (h : At list pos (part₁ ++ part₂)) :
    Slice.get? list (pos + part₁.length) (pos + (part₁ ++ part₂).length) = some part₂ := by
  have hget := h.right.get?
  rwa [Nat.add_assoc, ← length_append] at hget

theorem At.from? (h : At list pos part) : ∃ after, Slice.from? list pos = some (part ++ after) := by
  obtain ⟨before, after, rfl, rfl⟩ := h
  have hbound : before.length ≤ (before ++ (part ++ after)).length := by
    rw [length_append]
    omega
  exact ⟨after, by rw [Slice.from?, if_pos hbound, drop_left]⟩

end Slice
