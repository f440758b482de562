/-
Programs over an interface of calls that may fail: a program is its next call and what it does
with each answer. Run alone against a handler of the calls, a program is a function on the state;
a change of the state that no call of it sees can be made before the run or after it.
-/

/-- A program that makes calls of `F`; it ends with a result or an error. -/
inductive Program (ε : Type) (F : Type → Type) (α : Type) : Type 1
  | ret (result : Except ε α)
  | call {β : Type} (c : F β) (next : Except ε β → Program ε F α)

namespace Program

variable {ε : Type} {F : Type → Type} {α β γ : Type}

def bind (p : Program ε F α) (f : α → Program ε F β) : Program ε F β :=
  match p with
  | ret (.ok a) => f a
  | ret (.error e) => ret (.error e)
  | call c next => call c fun answer => bind (next answer) f

instance : Monad (Program ε F) where
  pure a := ret (.ok a)
  bind := bind

def fail (e : ε) : Program ε F α := ret (.error e)

/-- A call whose failure is the program's. -/
def perform (c : F β) : Program ε F β := call c ret

/-- A call whose failure becomes another error. -/
def performOr (g : ε → ε) (c : F β) : Program ε F β := call c fun answer => ret (answer.mapError g)

/-- A program whose failure becomes another error. -/
def mapError (g : ε → ε) : Program ε F α → Program ε F α
  | ret result => ret (result.mapError g)
  | call c next => call c fun answer => mapError g (next answer)

/-- A call whose failure the program looks at. -/
def attempt (c : F β) : Program ε F (Except ε β) := call c fun answer => ret (.ok answer)

/-- A result that needs no call. -/
def lift (x : Except ε α) : Program ε F α := ret x

/-! ## Alone -/

section Alone

variable {σ : Type} (handle : ∀ {β : Type}, F β → σ → Except ε β × σ)

/-- The run of a program against a handler of its calls. -/
def run : Program ε F α → σ → Except ε α × σ
  | ret result, s => (result, s)
  | call c next, s => run (next (handle c s).1) (handle c s).2

/-- The next call of a program, answered. -/
def step : Program ε F α → σ → Program ε F α × σ
  | ret result, s => (ret result, s)
  | call c next, s => (next (handle c s).1, (handle c s).2)

variable {handle} {s s₁ s₂ : σ} {p : Program ε F α} {f : α → Program ε F β} {a : α} {b : β}

/-- A step does not change what the run gives. -/
theorem run_step (p : Program ε F α) (s : σ) :
    run (@handle) (step (@handle) p s).1 (step (@handle) p s).2 = run (@handle) p s := by
  cases p with
  | ret result => rfl
  | call c next => rfl

/-- A sequence runs the second part where the first one ends. -/
theorem run_bind (p : Program ε F α) (f : α → Program ε F β) (s : σ) :
    run (@handle) (p >>= f) s =
      match run (@handle) p s with
      | (.ok a, s₁) => run (@handle) (f a) s₁
      | (.error e, s₁) => (.error e, s₁) := by
  induction p generalizing s with
  | ret result =>
    cases result with
    | ok a => rfl
    | error e => rfl
  | call c next ih => exact ih _ _

theorem run_bind_eq_ok_iff : run (@handle) (p >>= f) s = (.ok b, s₂) ↔
    ∃ a s₁, run (@handle) p s = (.ok a, s₁) ∧ run (@handle) (f a) s₁ = (.ok b, s₂) := by
  rw [run_bind]
  rcases run (@handle) p s with ⟨_ | a, s₁⟩
  · simp
  · simp only [Prod.mk.injEq, Except.ok.injEq]
    constructor
    · exact fun h => ⟨a, s₁, ⟨rfl, rfl⟩, h⟩
    · rintro ⟨_, _, ⟨rfl, rfl⟩, h⟩
      exact h

theorem lift_ok_bind : (lift (.ok a) >>= f : Program ε F β) = f a := rfl

theorem run_lift_eq_ok_iff {x : Except ε α} :
    run (@handle) (lift x : Program ε F α) s = (.ok a, s₁) ↔ x = .ok a ∧ s = s₁ := by
  simp [lift, run]

theorem run_attempt (c : F α) :
    run (@handle) (attempt c : Program ε F _) s = (.ok (handle c s).1, (handle c s).2) := rfl

theorem run_perform (c : F α) : run (@handle) (perform c : Program ε F α) s = handle c s := rfl

theorem run_performOr (g : ε → ε) (c : F α) :
    run (@handle) (performOr g c : Program ε F α) s = ((handle c s).1.mapError g, (handle c s).2) := rfl

theorem run_pure_eq_ok_iff {b : α} : run (@handle) (pure b : Program ε F α) s = (.ok a, s₁) ↔ b = a ∧ s = s₁ := by
  simp [pure, run]

theorem run_fail_ne_ok {e : ε} : run (@handle) (fail e : Program ε F α) s ≠ (.ok a, s₁) := by
  simp [fail, run]

/-! ### What a program leaves behind, whether it fails or not -/

variable (handle) in
/-- The run ends with this result and in this state. -/
def Ends (p : Program ε F α) (s : σ) (Q : Except ε α → σ → Prop) : Prop :=
  Q (run (@handle) p s).1 (run (@handle) p s).2

namespace Ends

variable {Q : Except ε β → σ → Prop}

theorem bind (hok : ∀ a s₁, run (@handle) p s = (.ok a, s₁) → Ends (@handle) (f a) s₁ Q)
    (herror : ∀ e s₁, run (@handle) p s = (.error e, s₁) → Q (.error e) s₁) : Ends (@handle) (p >>= f) s Q := by
  unfold Ends
  rw [run_bind]
  rcases hrun : run (@handle) p s with ⟨_ | a, s₁⟩
  · exact herror _ s₁ hrun
  · exact hok a s₁ hrun

theorem lift {x : Except ε α} (hok : ∀ a, x = .ok a → Ends (@handle) (f a) s Q)
    (herror : ∀ e, Q (.error e) s) : Ends (@handle) (Program.lift x >>= f) s Q := by
  refine bind (fun a s₁ hrun => ?_) fun e s₁ hrun => ?_
  · obtain ⟨rfl, rfl⟩ := run_lift_eq_ok_iff.1 hrun
    exact hok a rfl
  · obtain rfl := (Prod.mk.inj hrun).2
    exact herror e

theorem answer {c : F α} (hc : handle c s = (.ok a, s₁)) (h : Ends (@handle) (f a) s₁ Q) :
    Ends (@handle) (perform c >>= f) s Q := by
  refine bind (fun a' s' hrun => ?_) fun e s' hrun => ?_
  · rw [run_perform, hc] at hrun
    obtain ⟨ha, rfl⟩ := Prod.mk.inj hrun
    rw [← Except.ok.inj ha]
    exact h
  · rw [run_perform, hc] at hrun
    cases (Prod.mk.inj hrun).1

end Ends

theorem run_mapError (g : ε → ε) (p : Program ε F α) (s : σ) :
    run (@handle) (p.mapError g) s = ((run (@handle) p s).1.mapError g, (run (@handle) p s).2) := by
  induction p generalizing s with
  | ret result => rfl
  | call c next ih => exact ih _ _

/-! ### A change of the state that a program does not see -/

variable (handle) in
/-- Changed by `g` before the run or after it, the state comes out the same, and so does the result. -/
def Commutes (g : σ → σ) (p : Program ε F α) : Prop :=
  ∀ s, run (@handle) p (g s) = ((run (@handle) p s).1, g (run (@handle) p s).2)

namespace Commutes

variable {g : σ → σ}

theorem ret (x : Except ε α) : Commutes (@handle) g (.ret x : Program ε F α) := fun _ => rfl

theorem bind_map (hp : ∀ s, ∃ m : α → α, run (@handle) p (g s) =
      ((run (@handle) p s).1.map m, g (run (@handle) p s).2) ∧ ∀ a, f (m a) = f a)
    (hf : ∀ s a s₁, run (@handle) p s = (.ok a, s₁) → Commutes (@handle) g (f a)) :
    Commutes (@handle) g (p >>= f) := by
  intro s
  obtain ⟨m, hm, hfm⟩ := hp s
  rw [run_bind, run_bind, hm]
  rcases hrun : run (@handle) p s with ⟨_ | a, s₁⟩
  · rfl
  · simp only [Except.map, hfm]
    exact hf s a s₁ hrun s₁

theorem bind (hp : Commutes (@handle) g p) (hf : ∀ a, Commutes (@handle) g (f a)) :
    Commutes (@handle) g (p >>= f) := by
  refine bind_map (fun s => ⟨id, ?_, fun _ => rfl⟩) fun _ a _ _ => hf a
  rw [hp s]
  rcases run (@handle) p s with ⟨_ | a, s₁⟩ <;> rfl

theorem call {c : F α} (h : ∀ s, handle c (g s) = ((handle c s).1, g (handle c s).2))
    {next : Except ε α → Program ε F β} (hnext : ∀ x, Commutes (@handle) g (next x)) :
    Commutes (@handle) g (.call c next) := by
  intro s
  have : run (@handle) (.call c next) (g s) = run (@handle) (next (handle c s).1) (g (handle c s).2) := by
    rw [run, h]
  rw [this, hnext]
  rfl

end Commutes

end Alone

/-! ## Every call a program may make -/

/-- Every call the program may make, whatever the answers to the calls before it, is `ok`. -/
def Only (ok : ∀ β : Type, F β → Prop) : Program ε F α → Prop
  | ret _ => True
  | call c next => ok _ c ∧ ∀ answer, Only ok (next answer)

namespace Only

variable {ok ok' : ∀ β : Type, F β → Prop} {p : Program ε F α} {f : α → Program ε F β}

theorem bind (hp : p.Only ok) (hf : ∀ a, (f a).Only ok) : (p >>= f).Only ok := by
  induction p with
  | ret result =>
    cases result with
    | ok a => exact hf a
    | error e => trivial
  | call c next ih => exact ⟨hp.1, fun answer => ih answer (hp.2 answer)⟩

theorem mapError (hp : p.Only ok) (g : ε → ε) : (p.mapError g).Only ok := by
  induction p with
  | ret result => trivial
  | call c next ih => exact ⟨hp.1, fun answer => ih answer (hp.2 answer)⟩

theorem perform {c : F β} (h : ok _ c) : (Program.perform c : Program ε F β).Only ok := ⟨h, fun _ => trivial⟩

theorem performOr {c : F β} (g : ε → ε) (h : ok _ c) : (Program.performOr g c : Program ε F β).Only ok :=
  ⟨h, fun _ => trivial⟩

theorem attempt {c : F β} (h : ok _ c) : (Program.attempt c : Program ε F _).Only ok := ⟨h, fun _ => trivial⟩

theorem mono (hp : p.Only ok) (hok : ∀ β c, ok β c → ok' β c) : p.Only ok' := by
  induction p with
  | ret result => trivial
  | call c next ih => exact ⟨hok _ c hp.1, fun answer => ih answer (hp.2 answer)⟩

section Step

variable {σ : Type} {handle : ∀ {β : Type}, F β → σ → Except ε β × σ} {s : σ}

theorem step (hp : p.Only ok) : (step (@handle) p s).1.Only ok := by
  cases p with
  | ret result => trivial
  | call c next => exact hp.2 _

theorem keeps {I : σ → Prop} (hp : p.Only ok) (hok : ∀ β (c : F β) s, ok β c → I s → I (handle c s).2) (h : I s) :
    I (Program.step (@handle) p s).2 := by
  cases p with
  | ret result => exact h
  | call c next => exact hok _ c s hp.1 h

end Step

end Only

theorem bind_assoc (p : Program ε F α) (f : α → Program ε F β) (g : β → Program ε F γ) :
    p >>= f >>= g = p >>= fun a => f a >>= g := by
  induction p with
  | ret result =>
    cases result with
    | ok a => rfl
    | error e => rfl
  | call c next ih => exact congrArg (call c) (funext fun answer => ih answer)

end Program
