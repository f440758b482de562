/-
A machine that takes an input with outputs and a next state, or refuses it: its runs with all that happened in them, and
the rules by which what every step keeps holds all along a run.
-/
import Mathlib.Data.List.Basic

namespace AffinidiTdk.Machine

open List

variable {σ ι ω : Type*}

/-- A step that was taken. -/
structure Taken (σ ι ω : Type*) where
  before : σ
  input : ι
  output : List ω
  after : σ

variable (step : σ → ι → Option (List ω × σ))

/-- The machine gets from the first state to the last one by the steps of the trace. -/
inductive Run (s₀ : σ) : List (Taken σ ι ω) → σ → Prop
  | nil : Run s₀ [] s₀
  | snoc {trace : List (Taken σ ι ω)} {s t : σ} {input : ι} {output : List ω} (h : Run s₀ trace s)
      (hstep : step s input = some (output, t)) : Run s₀ (trace ++ [⟨s, input, output, t⟩]) t

/-- All that was given out. -/
def outputs (trace : List (Taken σ ι ω)) : List ω := trace.flatMap Taken.output

@[simp] theorem outputs_append (trace trace' : List (Taken σ ι ω)) :
    outputs (trace ++ trace') = outputs trace ++ outputs trace' := flatMap_append

@[simp] theorem outputs_singleton (t : Taken σ ι ω) : outputs [t] = t.output := append_nil _

variable {step}

variable {s : σ}

theorem Run.single {t : σ} {input : ι} {output : List ω} (h : step s input = some (output, t)) :
    Run step s [⟨s, input, output, t⟩] t := .snoc .nil h

variable {s₀ : σ} {trace : List (Taken σ ι ω)}

theorem Run.trans {t : σ} {trace' : List (Taken σ ι ω)} (h : Run step s₀ trace s) (h' : Run step s trace' t) :
    Run step s₀ (trace ++ trace') t := by
  induction h' with
  | nil =>
    rw [append_nil]
    exact h
  | snoc _ hstep ih =>
    rw [← append_assoc]
    exact .snoc ih hstep

theorem Run.taken (h : Run step s₀ trace s) : ∀ t ∈ trace, step t.before t.input = some (t.output, t.after) := by
  induction h with
  | nil =>
    intro t ht
    cases ht
  | snoc _ hstep ih =>
    intro t ht
    rcases mem_append.1 ht with ht | ht
    · exact ih t ht
    · cases mem_singleton.1 ht
      exact hstep

/-- What holds at the start, of no trace, and is kept by every step of the kind that the run is made of, holds at the
end of the run. -/
theorem Run.inv {ok : Taken σ ι ω → Prop} (Inv : List (Taken σ ι ω) → σ → Prop) (h : Run step s₀ trace s)
    (hok : ∀ t ∈ trace, ok t) (hstart : Inv [] s₀)
    (hkept : ∀ trace t, step t.before t.input = some (t.output, t.after) → ok t → Inv trace t.before →
    Inv (trace ++ [t]) t.after) : Inv trace s := by
  induction h with
  | nil => exact hstart
  | @snoc trace s t input output _ hstep ih =>
    have hbefore : Inv trace s := ih fun u hu => hok u (mem_append_left _ hu)
    exact hkept trace ⟨s, input, output, t⟩ hstep (hok _ (by simp)) hbefore

theorem Run.inv_before {Inv : σ → Prop} (h : Run step s₀ trace s) (hstart : Inv s₀)
    (hkept : ∀ s input output t, step s input = some (output, t) → Inv s → Inv t) : ∀ t ∈ trace, Inv t.before := by
  induction h with
  | nil =>
    intro t ht
    cases ht
  | snoc hrun _ ih =>
    intro t ht
    rcases mem_append.1 ht with ht | ht
    · exact ih t ht
    · cases mem_singleton.1 ht
      exact hrun.inv (fun _ => Inv) (fun _ _ => trivial) hstart fun _ t hstep _ =>
        hkept t.before t.input t.output t.after hstep

end AffinidiTdk.Machine
