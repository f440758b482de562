/-
Linearizability: the history of the calls made of a shared object, and the sequential order that explains it.
An order grows with the history, by three rules: a call begins, a call takes effect, a call returns.
-/
import Mathlib.Data.List.Nodup

/-- A sequential object: what a call answers and leaves. -/
structure SeqObject (σ Op Res : Type) where
  apply : Op → σ → Res × σ

namespace SeqObject

open List

variable {Id σ Op Res : Type}

/-! ## Sequential orders -/

/-- A call placed in a sequential order, with what it answers there. -/
structure Entry (Id Op Res : Type) where
  id : Id
  op : Op
  res : Res

def ids (order : List (Entry Id Op Res)) : List Id := order.map Entry.id

/-- The state after the calls of an order. -/
def after (obj : SeqObject σ Op Res) (start : σ) (order : List (Entry Id Op Res)) : σ :=
  order.foldl (fun s e => (obj.apply e.op s).2) start

@[simp]
theorem after_append (obj : SeqObject σ Op Res) (start : σ) (order more : List (Entry Id Op Res)) :
    obj.after start (order ++ more) = obj.after (obj.after start order) more := by
  simp [after]

/-- Every answer of the order is the object's. -/
def Legal (obj : SeqObject σ Op Res) : σ → List (Entry Id Op Res) → Prop
  | _, [] => True
  | s, e :: rest => e.res = (obj.apply e.op s).1 ∧ obj.Legal (obj.apply e.op s).2 rest

variable {obj : SeqObject σ Op Res} {order : List (Entry Id Op Res)}

theorem legal_append {start : σ} {more : List (Entry Id Op Res)} : obj.Legal start (order ++ more) ↔
    obj.Legal start order ∧ obj.Legal (obj.after start order) more := by
  induction order generalizing start with
  | nil => simp [Legal, after]
  | cons e order ih =>
    show _ ∧ obj.Legal _ (order ++ more) ↔ (_ ∧ obj.Legal _ order) ∧ _
    rw [ih, and_assoc]
    rfl

theorem after_preserves {P : σ → Prop} (hstep : ∀ e ∈ order, ∀ s, P s → P (obj.apply e.op s).2) {start : σ}
    (hstart : P start) : P (obj.after start order) := by
  induction order generalizing start with
  | nil => exact hstart
  | cons e order ih =>
    exact ih (fun e' he' => hstep e' (mem_cons_of_mem e he')) (hstep e mem_cons_self start hstart)

/-! ## Histories -/

/-- A call or a return of an operation. -/
inductive Event (Id Op Res : Type)
  | call (i : Id) (op : Op)
  | ret (i : Id) (res : Res)
  deriving DecidableEq

/-- The call `i` returned before `j` began. -/
def Precedes (history : List (Event Id Op Res)) (i j : Id) : Prop :=
  ∃ res op, [Event.ret i res, Event.call j op].Sublist history

/-- The order explains the history: what the callers saw is what the object answers when the calls are made one
after the other in that order, which keeps the order of the calls that did not overlap. A call that has not
returned may be in the order or not. `same` says when a returned result stands for the object's. -/
structure Explains (obj : SeqObject σ Op Res) (same : Op → Res → Res → Prop) (start : σ)
    (history : List (Event Id Op Res)) (order : List (Entry Id Op Res)) : Prop where
  legal : obj.Legal start order
  once : (ids order).Nodup
  called : ∀ e ∈ order, Event.call e.id e.op ∈ history
  answered : ∀ i res, Event.ret i res ∈ history → ∃ e ∈ order, e.id = i ∧ same e.op res e.res
  ordered : ∀ i j, Precedes history i j → j ∈ ids order → [i, j].Sublist (ids order)

def Linearizable (obj : SeqObject σ Op Res) (same : Op → Res → Res → Prop) (start : σ)
    (history : List (Event Id Op Res)) : Prop :=
  ∃ order, Explains obj same start history order

/-! ## How an order grows -/

theorem mem_ids {i : Id} : i ∈ ids order ↔ ∃ e ∈ order, e.id = i := by
  simp [ids]

theorem ids_append (order more : List (Entry Id Op Res)) : ids (order ++ more) = ids order ++ ids more := by
  simp [ids]

theorem sublist_snoc {α : Type} {a b c : α} {l : List α} (h : [a, b].Sublist (l ++ [c])) :
    [a, b].Sublist l ∨ a ∈ l ∧ b = c := by
  obtain ⟨l₁, l₂, heq, h₁, h₂⟩ := sublist_append_iff.1 h
  rcases sublist_singleton.1 h₂ with rfl | rfl
  · left
    rw [append_nil] at heq
    exact heq ▸ h₁
  · right
    obtain ⟨rfl, hb⟩ : [a] = l₁ ∧ b = c := by
      have hsplit : [a] ++ [b] = l₁ ++ [c] := heq
      obtain ⟨ha, hb⟩ := append_inj' hsplit rfl
      exact ⟨ha, singleton_inj.1 hb⟩
    exact ⟨singleton_sublist.1 h₁, hb⟩

variable {obj : SeqObject σ Op Res} {same : Op → Res → Res → Prop} {start : σ}
  {history : List (Event Id Op Res)} {order : List (Entry Id Op Res)}

theorem Explains.nil (obj : SeqObject σ Op Res) (same : Op → Res → Res → Prop) (start : σ) :
    Explains obj same start ([] : List (Event Id Op Res)) [] where
  legal := trivial
  once := nodup_nil
  called := fun _ he => absurd he not_mem_nil
  answered := fun _ _ h => absurd h not_mem_nil
  ordered := fun _ _ _ h => absurd h not_mem_nil

theorem Explains.call (h : Explains obj same start history order) {j : Id} (op : Op)
    (hfresh : ∀ op, Event.call j op ∉ history) :
    Explains obj same start (history ++ [.call j op]) order where
  legal := h.legal
  once := h.once
  called := fun e he => mem_append_left _ (h.called e he)
  answered := fun i res hret => by
    rcases mem_append.1 hret with hret | hret
    · exact h.answered i res hret
    · simp at hret
  ordered := fun i j' hprec hj' => by
    obtain ⟨res, op', hsub⟩ := hprec
    rcases sublist_snoc hsub with hsub | ⟨-, heq⟩
    · exact h.ordered i j' ⟨res, op', hsub⟩ hj'
    · -- the new call is not placed yet
      obtain ⟨e, he, heid⟩ := mem_ids.1 hj'
      injection heq with hid
      exact absurd (h.called e he) (heid ▸ hid ▸ hfresh e.op)

/-- A call takes effect: it goes last, since every call that returned is placed already. -/
theorem Explains.commit (h : Explains obj same start history order) {i : Id} {op : Op}
    (hcalled : Event.call i op ∈ history) (hnew : i ∉ ids order) :
    Explains obj same start history (order ++ [⟨i, op, (obj.apply op (obj.after start order)).1⟩]) where
  legal := legal_append.2 ⟨h.legal, rfl, trivial⟩
  once := by
    rw [ids_append]
    exact nodup_append.2 ⟨h.once, nodup_singleton i, fun a ha b hb hab => by
      rw [hab, mem_singleton.1 hb] at ha
      exact hnew ha⟩
  called := fun e he => by
    rcases mem_append.1 he with he | he
    · exact h.called e he
    · rw [mem_singleton.1 he]
      exact hcalled
  answered := fun i' res hret => by
    obtain ⟨e, he, hid⟩ := h.answered i' res hret
    exact ⟨e, mem_append_left _ he, hid⟩
  ordered := fun i' j hprec hj => by
    rw [ids_append] at hj ⊢
    rcases mem_append.1 hj with hj | hj
    · exact (h.ordered i' j hprec hj).trans (sublist_append_left ..)
    · obtain ⟨res, op', hsub⟩ := hprec
      have hret : Event.ret i' res ∈ history := hsub.subset (by simp)
      obtain ⟨e, he, hid, -⟩ := h.answered i' res hret
      exact List.Sublist.append (singleton_sublist.2 (mem_ids.2 ⟨e, he, hid⟩)) (singleton_sublist.2 hj)

theorem Explains.ret (h : Explains obj same start history order) {e : Entry Id Op Res} (he : e ∈ order) {res : Res}
    (hsame : same e.op res e.res) : Explains obj same start (history ++ [.ret e.id res]) order where
  legal := h.legal
  once := h.once
  called := fun e' he' => mem_append_left _ (h.called e' he')
  answered := fun i res' hret => by
    rcases mem_append.1 hret with hret | hret
    · exact h.answered i res' hret
    · obtain ⟨rfl, rfl⟩ : i = e.id ∧ res' = res := by simpa using hret
      exact ⟨e, he, rfl, hsame⟩
  ordered := fun i j hprec hj => by
    obtain ⟨res', op, hsub⟩ := hprec
    rcases sublist_snoc hsub with hsub | ⟨-, heq⟩
    · exact h.ordered i j ⟨res', op, hsub⟩ hj
    · simp at heq

/-! ## What an order says of two calls -/

variable {e e' : Entry Id Op Res}

/-- Two calls in the order, the first before the second, with what stands between them. -/
theorem split_of_sublist (hnodup : (ids order).Nodup) (he : e ∈ order) (he' : e' ∈ order)
    (hsub : [e.id, e'.id].Sublist (ids order)) : ∃ before between rest, order = before ++
    e :: (between ++ e' :: rest) := by
  obtain ⟨before, later, rfl⟩ := append_of_mem he
  rw [ids_append] at hnodup hsub
  have hnot : e.id ∉ ids before := fun hmem =>
    (nodup_append.1 hnodup).2.2 e.id hmem e.id (by simp [ids]) rfl
  have hlater : [e.id, e'.id].Sublist (ids (e :: later)) := by
    obtain ⟨l₁, l₂, heq, h₁, h₂⟩ := sublist_append_iff.1 hsub
    cases l₁ with
    | nil => exact heq ▸ h₂
    | cons a l₁ =>
      rw [cons_append, List.cons.injEq] at heq
      exact absurd (h₁.subset (by simp [heq.1])) hnot
  have hin : e'.id ∈ ids later := by
    have := cons_sublist_cons.1 hlater
    exact singleton_sublist.1 this
  have hmem : e' ∈ later := by
    obtain ⟨e'', he'', hid⟩ := mem_ids.1 hin
    have hsame : e'' = e' := by
      refine inj_on_of_nodup_map (f := Entry.id) (l := before ++ e :: later) ?_ ?_ he' hid
      · simpa [ids] using hnodup
      · simp [he'']
    exact hsame ▸ he''
  obtain ⟨between, rest, rfl⟩ := append_of_mem hmem
  exact ⟨before, between, rest, rfl⟩

theorem not_sublist_of_later {before later : List (Entry Id Op Res)} (hnodup : (ids (before ++ e :: later)).Nodup)
    (he' : e' ∈ later) : ¬ [e'.id, e.id].Sublist (ids (before ++ e :: later)) := by
  intro hsub
  have hids : ids (before ++ e :: later) = ids before ++ e.id :: ids later := by simp [ids]
  have hmem : e'.id ∈ ids later := mem_ids.2 ⟨e', he', rfl⟩
  rw [hids] at hnodup hsub
  obtain ⟨-, hright, hdisjoint⟩ := nodup_append.1 hnodup
  obtain ⟨l₁, l₂, heq, h₁, h₂⟩ := sublist_append_iff.1 hsub
  cases l₁ with
  | nil =>
    rw [nil_append] at heq
    rw [← heq] at h₂
    -- what follows the call holds the other one, not the call again
    rcases sublist_cons_iff.1 h₂ with h₂ | ⟨tail, htail, h₂⟩
    · exact (nodup_cons.1 hright).1 (h₂.subset (by simp))
    · obtain ⟨-, rfl⟩ : e'.id = e.id ∧ [e.id] = tail := by simpa using htail
      exact (nodup_cons.1 hright).1 (h₂.subset (by simp))
  | cons a l₁ =>
    rw [cons_append, List.cons.injEq] at heq
    exact hdisjoint e'.id (h₁.subset (by simp [heq.1])) e'.id (mem_cons_of_mem _ hmem) rfl

end SeqObject
