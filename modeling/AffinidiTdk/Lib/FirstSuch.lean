/-
The first element of a list with a property, as a relation: what a search from the front finds, whatever the search
looks like.
-/
import Mathlib.Data.List.Basic

namespace AffinidiTdk

open List

variable {α β : Type*}

/-- `a` is the first element of the list with the property. -/
def FirstSuch (p : α → Prop) (l : List α) (a : α) : Prop :=
  ∃ before after, l = before ++ a :: after ∧ p a ∧ ∀ b ∈ before, ¬p b

namespace FirstSuch

variable {p : α → Prop} {l : List α} {a : α}

theorem mem (h : FirstSuch p l a) : a ∈ l := by
  obtain ⟨before, after, rfl, -, -⟩ := h
  simp

theorem holds (h : FirstSuch p l a) : p a := by
  obtain ⟨before, after, -, ha, -⟩ := h
  exact ha

theorem congr {q : α → Prop} (h : ∀ b ∈ l, p b ↔ q b) : FirstSuch p l a ↔ FirstSuch q l a := by
  constructor
  · rintro ⟨before, after, rfl, ha, hbefore⟩
    refine ⟨before, after, rfl, (h a (by simp)).1 ha, fun b hb hq => hbefore b hb ((h b ?_).2 hq)⟩
    exact mem_append_left _ hb
  · rintro ⟨before, after, rfl, ha, hbefore⟩
    refine ⟨before, after, rfl, (h a (by simp)).2 ha, fun b hb hq => hbefore b hb ((h b ?_).1 hq)⟩
    exact mem_append_left _ hb

theorem cons_of_holds (h : p a) (l : List α) : FirstSuch p (a :: l) a := ⟨[], l, rfl, h, by simp⟩

theorem cons_iff {b : α} : FirstSuch p (b :: l) a ↔ (p b ∧ a = b) ∨ (¬p b ∧ FirstSuch p l a) := by
  constructor
  · rintro ⟨before, after, heq, ha, hbefore⟩
    cases before with
    | nil =>
      cases heq
      exact .inl ⟨ha, rfl⟩
    | cons c before =>
      cases heq
      exact .inr ⟨hbefore b mem_cons_self, before, after, rfl, ha, fun c hc => hbefore c (mem_cons_of_mem _ hc)⟩
  · rintro (⟨hb, rfl⟩ | ⟨hb, before, after, rfl, ha, hbefore⟩)
    · exact cons_of_holds hb l
    · refine ⟨b :: before, after, rfl, ha, fun c hc => ?_⟩
      rcases mem_cons.1 hc with rfl | hc
      · exact hb
      · exact hbefore c hc

theorem not_nil : ¬FirstSuch p [] a := fun h => absurd h.mem not_mem_nil

theorem exists_iff : (∃ a, FirstSuch p l a) ↔ ∃ a ∈ l, p a := by
  constructor
  · rintro ⟨a, ha⟩
    exact ⟨a, ha.mem, ha.holds⟩
  · induction l with
    | nil => rintro ⟨a, ha, -⟩; exact absurd ha not_mem_nil
    | cons b l ih =>
      rintro ⟨a, ha, hp⟩
      by_cases hb : p b
      · exact ⟨b, cons_of_holds hb l⟩
      · rcases mem_cons.1 ha with rfl | ha
        · exact absurd hp hb
        · obtain ⟨a, hfirst⟩ := ih ⟨a, ha, hp⟩
          exact ⟨a, cons_iff.2 (.inr ⟨hb, hfirst⟩)⟩

theorem find?_eq_some_iff {test : α → Bool} : l.find? test = some a ↔ FirstSuch (fun b => test b = true) l a := by
  induction l with
  | nil => simp [not_nil]
  | cons b l ih =>
    rw [cons_iff, find?_cons]
    cases htest : test b with
    | false => simp [ih]
    | true =>
      constructor
      · intro h
        cases h
        exact .inl ⟨rfl, rfl⟩
      · rintro (⟨-, rfl⟩ | ⟨hnot, -⟩)
        · rfl
        · exact absurd rfl hnot

theorem findSome?_eq_some_iff {f : α → Option β} {b : β} :
    l.findSome? f = some b ↔ ∃ a, FirstSuch (fun a => (f a).isSome = true) l a ∧ f a = some b := by
  induction l with
  | nil => simp [not_nil]
  | cons c l ih =>
    rw [findSome?_cons]
    cases hc : f c with
    | none => simp [cons_iff, hc, ih]
    | some d =>
      constructor
      · intro h
        cases h
        exact ⟨c, cons_of_holds (by rw [hc]; rfl) l, hc⟩
      · rintro ⟨a, hfirst, ha⟩
        rcases cons_iff.1 hfirst with ⟨-, rfl⟩ | ⟨hnone, -⟩
        · rw [← ha, hc]
        · exact absurd (by rw [hc]; rfl) hnone

end FirstSuch

end AffinidiTdk
