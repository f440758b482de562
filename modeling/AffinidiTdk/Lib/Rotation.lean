/-
Secrets that are to be used once: under each key there is a current secret, and whoever shows it
replaces it by another one. Showing and replacing are two steps, so others may come in between. As
long as they do not, and no secret comes back, a secret is shown by one party at most.
-/
import Mathlib.Data.List.Basic

namespace Rotation

open List Option

/-- How far a party is with the secret under a key. -/
inductive Phase (K V : Type)
  | idle
  | replacing (key : K) (shown next : V)
  | done (key : K) (shown : V)

namespace Phase

variable {K V : Type}

/-- The secret a party has shown. -/
def shown : Phase K V → Option (K × V)
  | idle => none
  | replacing key shown _ => some (key, shown)
  | done key shown => some (key, shown)

end Phase

section

variable {K V : Type}

/-- Nobody shows a secret that another one has shown: those replaced are not current, and those
being replaced are one for each key. -/
structure OneTime (current : K → Option V) (parties : List (Phase K V)) : Prop where
  once : ∀ (i j : ℕ) (p q : Phase K V) (x : K × V), parties[i]? = some p → parties[j]? = some q →
    p.shown = some x → q.shown = some x → i = j
  alone : ∀ (i j : ℕ) (k : K) (v w v' w' : V), parties[i]? = some (.replacing k v w) →
    parties[j]? = some (.replacing k v' w') → i = j
  fresh : ∀ (k : K) (v w : V) (q : Phase K V) (u : V), .replacing k v w ∈ parties → q ∈ parties →
    q.shown = some (k, u) → w ≠ u
  used : ∀ (k : K) (v : V), .done k v ∈ parties → current k ≠ some v

variable {current current' : K → Option V} {parties : List (Phase K V)} {i : ℕ} {k : K} {v w : V}

theorem getElem?_set_cases {α : Type} {l : List α} {i j : ℕ} {a b : α} (h : (l.set i a)[j]? = some b) :
    j = i ∧ b = a ∨ j ≠ i ∧ l[j]? = some b := by
  by_cases hij : i = j
  · subst hij
    obtain ⟨hlt, hget⟩ := List.getElem?_eq_some_iff.1 h
    rw [getElem_set_self] at hget
    exact .inl ⟨rfl, hget.symm⟩
  · rw [getElem?_set_ne hij] at h
    exact .inr ⟨Ne.symm hij, h⟩

theorem mem_set_cases {α : Type} {l : List α} {i : ℕ} {a b : α} (h : b ∈ l.set i a) : b = a ∨ b ∈ l := by
  rcases mem_or_eq_of_mem_set h with hmem | heq
  · exact .inr hmem
  · exact .inl heq

namespace OneTime

theorem start (hidle : ∀ p ∈ parties, p = .idle) : OneTime current parties where
  once i j p q x hp _ hshown _ := by
    rw [hidle p (mem_of_getElem? hp)] at hshown
    cases hshown
  alone i j k v w v' w' hp _ := by cases hidle _ (mem_of_getElem? hp)
  fresh k v w q u hp _ _ := by cases hidle _ hp
  used k v hp := by cases hidle _ hp

theorem forget (h : OneTime current parties) (hcurrent : ∀ k v, current' k = some v → current k = some v) :
    OneTime current' parties :=
  { h with used := fun k v hp hcur => h.used k v hp (hcurrent k v hcur) }

/-- A party shows the current secret while no other one replaces it; what it will write has not been
shown, and is not this one. -/
theorem present (h : OneTime current parties) (hcurrent : current k = some v)
    (halone : ∀ v' w' : V, .replacing k v' w' ∉ parties) (hne : w ≠ v)
    (hfresh : ∀ q ∈ parties, ∀ u : V, q.shown = some (k, u) → w ≠ u) :
    OneTime current (parties.set i (.replacing k v w)) := by
  -- a party that has shown this secret before has replaced it
  have hnew : ∀ q ∈ parties, q.shown ≠ some (k, v) := by
    intro q hq hshown
    cases q with
    | idle => cases hshown
    | replacing k' v' w' =>
      obtain ⟨rfl, -⟩ := Prod.mk.inj (some.inj hshown)
      exact halone v' w' hq
    | done k' v' =>
      obtain ⟨rfl, rfl⟩ := Prod.mk.inj (some.inj hshown)
      exact h.used k' v' hq hcurrent
  refine ⟨?_, ?_, ?_, ?_⟩
  · intro a b p q x hp hq hpx hqx
    rcases getElem?_set_cases hp with ⟨ha, rfl⟩ | ⟨-, hp'⟩ <;> rcases getElem?_set_cases hq with ⟨hb, rfl⟩ | ⟨-, hq'⟩
    · rw [ha, hb]
    · exact absurd (hqx.trans hpx.symm) (hnew q (mem_of_getElem? hq'))
    · exact absurd (hpx.trans hqx.symm) (hnew p (mem_of_getElem? hp'))
    · exact h.once a b p q x hp' hq' hpx hqx
  · intro a b k' v₁ w₁ v₂ w₂ hp hq
    rcases getElem?_set_cases hp with ⟨ha, hpeq⟩ | ⟨-, hp'⟩ <;> rcases getElem?_set_cases hq with ⟨hb, hqeq⟩ |
      ⟨-, hq'⟩
    · rw [ha, hb]
    · obtain ⟨rfl, -, -⟩ := Phase.replacing.inj hpeq
      exact absurd (mem_of_getElem? hq') (halone v₂ w₂)
    · obtain ⟨rfl, -, -⟩ := Phase.replacing.inj hqeq
      exact absurd (mem_of_getElem? hp') (halone v₁ w₁)
    · exact h.alone a b k' v₁ w₁ v₂ w₂ hp' hq'
  · intro k' v' w' q u hp hq hshown
    rcases mem_set_cases hp with hpeq | hp' <;> rcases mem_set_cases hq with rfl | hq'
    · obtain ⟨rfl, rfl, rfl⟩ := Phase.replacing.inj hpeq
      cases hshown
      exact hne
    · obtain ⟨rfl, rfl, rfl⟩ := Phase.replacing.inj hpeq
      exact hfresh q hq' u hshown
    · cases hshown
      exact absurd hp' (halone v' w')
    · exact h.fresh k' v' w' q u hp' hq' hshown
  · intro k' v' hp
    rcases mem_set_cases hp with hpeq | hp'
    · cases hpeq
    · exact h.used k' v' hp'

theorem replace [DecidableEq K] (h : OneTime current parties) (hp : parties[i]? = some (.replacing k v w)) :
    OneTime (Function.update current k (some w)) (parties.set i (.done k v)) := by
  have hmem := mem_of_getElem? hp
  refine ⟨?_, ?_, ?_, ?_⟩
  · intro a b p q x hpa hqb hpx hqx
    rcases getElem?_set_cases hpa with ⟨rfl, rfl⟩ | ⟨-, hpa'⟩ <;>
      rcases getElem?_set_cases hqb with ⟨rfl, rfl⟩ | ⟨-, hqb'⟩
    · rfl
    · exact h.once _ b _ q x hp hqb' hpx hqx
    · exact h.once a _ p _ x hpa' hp hpx hqx
    · exact h.once a b p q x hpa' hqb' hpx hqx
  · intro a b k' v₁ w₁ v₂ w₂ hpa hqb
    rcases getElem?_set_cases hpa with ⟨-, heq⟩ | ⟨-, hpa⟩
    · cases heq
    rcases getElem?_set_cases hqb with ⟨-, heq⟩ | ⟨-, hqb⟩
    · cases heq
    exact h.alone a b k' v₁ w₁ v₂ w₂ hpa hqb
  · intro k' v' w' q u hpa hq hshown
    rcases mem_set_cases hpa with heq | hpa
    · cases heq
    rcases mem_set_cases hq with rfl | hq
    · exact h.fresh k' v' w' _ u hpa hmem hshown
    · exact h.fresh k' v' w' q u hpa hq hshown
  · intro k' v' hq
    by_cases hk : k' = k
    · subst hk
      rw [Function.update_self]
      intro heq
      -- whoever is done under this key has shown something else
      rcases mem_set_cases hq with hqeq | hq
      · obtain ⟨-, rfl⟩ := Phase.done.inj hqeq
        exact h.fresh _ _ _ _ _ hmem hmem rfl (some.inj heq)
      · exact h.fresh _ _ _ _ _ hmem hq rfl (some.inj heq)
    · rw [Function.update_of_ne hk]
      rcases mem_set_cases hq with hqeq | hq
      · exact absurd (Phase.done.inj hqeq).1 hk
      · exact h.used k' v' hq

end OneTime

end

end Rotation
