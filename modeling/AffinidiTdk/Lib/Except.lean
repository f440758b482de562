/-
Inversion rules for fallible computations, in `Except` and over a state: what it takes for a
bind, a guard or a literal to return `ok`. They take a `do` block apart from the front, one check
at a time.
-/

namespace Fallible

variable {ε α β : Type}

variable {b : β}

/-- A sequence succeeds if and only if each part does. -/
theorem bind_eq_ok_iff {x : Except ε α} {f : α → Except ε β} :
    (x >>= f) = .ok b ↔ ∃ a, x = .ok a ∧ f a = .ok b := by
  cases x with
  | error e | ok a => simp [bind, Except.bind]

theorem unit_bind_eq_ok_iff {x : Except ε Unit} {y : Except ε β} :
    (x >>= fun _ => y) = .ok b ↔ x = .ok () ∧ y = .ok b := by
  cases x <;> simp [bind, Except.bind]

theorem ok_bind (a : α) (f : α → Except ε β) : ((Except.ok a : Except ε α) >>= f) = f a := rfl

variable {a : α}

theorem pure_eq_ok_iff {b : α} : (pure a : Except ε α) = .ok b ↔ a = b := by
  simp [pure, Except.pure]

variable {e : ε}

variable {ε' : Type}

theorem mapError_ok (f : ε → ε') (a : α) : (Except.ok a : Except ε α).mapError f = .ok a := rfl

theorem mapError_error (f : ε → ε') (e : ε) : (Except.error e : Except ε α).mapError f = .error (f e) := rfl

theorem mapError_eq_ok_iff {f : ε → ε'} {x : Except ε α} : x.mapError f = .ok a ↔ x = .ok a := by
  cases x <;> simp [mapError_ok, mapError_error]

theorem toOption_eq_some_iff {x : Except ε α} : x.toOption = some a ↔ x = .ok a := by
  cases x <;> simp [Except.toOption]

variable {c : Prop}

/-- A guard passes if and only if its condition does not hold. -/
theorem guard_eq_ok_iff [Decidable c] {k : α → Except ε β} {m : Except ε β} : (if c then throw e >>= k else m) =
    .ok b ↔ ¬c ∧ m = .ok b := by
  by_cases hc : c
  · simp [hc, bind, Except.bind, throw, throwThe, MonadExceptOf.throw]
  · simp [hc]

theorem ite_throw_eq_ok_iff [Decidable c] {m : Except ε α} {b : α} :
    (if c then throw e else m) = .ok b ↔ ¬c ∧ m = .ok b := by
  by_cases hc : c
  · simp [hc, throw, throwThe, MonadExceptOf.throw]
  · simp [hc]

theorem elim_throw_eq_ok_iff {x : Option α} : x.elim (throw e : Except ε α) pure = .ok a ↔ x = some a := by
  cases x <;> simp [throw, throwThe, MonadExceptOf.throw, pure, Except.pure]

theorem forM_eq_ok_iff {f : α → Except ε Unit} : {xs : List α} → (xs.forM f = .ok () ↔ ∀ x ∈ xs, f x = .ok ())
  | [] => by simp [pure_eq_ok_iff]
  | x :: xs => by
    rw [List.forM_eq_forM, List.forM_cons, unit_bind_eq_ok_iff, ← List.forM_eq_forM, forM_eq_ok_iff,
      List.forall_mem_cons]

/-! ## Over a state -/

variable {σ : Type}

/-- A computation that may fail over a state that outlives the failure. -/
abbrev Action (σ ε : Type) := ExceptT ε (StateM σ)

/-- The outcome of an action and the state it leaves. -/
def exec (x : Action σ ε α) (s : σ) : Except ε α × σ := (ExceptT.run x).run s

/-- A function on the state as an action. -/
def step (f : σ → Except ε α × σ) : Action σ ε α := ExceptT.mk fun s => f s

/-- The action with another error in place of its own. -/
def mapError (g : ε → ε) (x : Action σ ε α) : Action σ ε α :=
  step fun s => ((exec x s).1.mapError g, (exec x s).2)

variable {s s' : σ}

theorem exec_bind (x : Action σ ε α) (f : α → Action σ ε β) (s : σ) :
    exec (x >>= f) s =
      match exec x s with
      | (.ok a, s₁) => exec (f a) s₁
      | (.error e, s₁) => (.error e, s₁) := by
  simp only [exec, ExceptT.run_bind, StateT.run_bind]
  rcases StateT.run (ExceptT.run x) s with ⟨_ | a, s₁⟩ <;> rfl

variable {x : Action σ ε α} {f : α → Action σ ε β}

theorem exec_bind_of_ok (h : exec x s = (.ok a, s')) : exec (x >>= f) s = exec (f a) s' := by
  rw [exec_bind, h]

theorem exec_bind_of_error (h : exec x s = (.error e, s')) : exec (x >>= f) s = (.error e, s') := by
  rw [exec_bind, h]

theorem exec_bind_eq_ok_iff :
    exec (x >>= f) s = (.ok b, s') ↔ ∃ a s₁, exec x s = (.ok a, s₁) ∧ exec (f a) s₁ = (.ok b, s') := by
  rw [exec_bind]
  rcases exec x s with ⟨e | a, s₁⟩
  · simp
  · constructor
    · intro h
      exact ⟨a, s₁, rfl, h⟩
    · rintro ⟨a', s₂, ha, h⟩
      cases ha
      exact h

theorem exec_step (f : σ → Except ε α × σ) (s : σ) : exec (step f) s = f s := rfl

theorem exec_pure (a : α) (s : σ) : exec (pure a : Action σ ε α) s = (.ok a, s) := rfl

theorem exec_pure_eq_ok_iff {b : α} : exec (pure a : Action σ ε α) s = (.ok b, s') ↔ a = b ∧ s = s' := by
  simp [exec_pure]

theorem exec_throw (e : ε) (s : σ) : exec (throw e : Action σ ε α) s = (.error e, s) := rfl

theorem exec_throw_eq_ok_iff {b : α} : exec (throw e : Action σ ε α) s = (.ok b, s') ↔ False := by
  simp [exec_throw]

theorem exec_guard_eq_ok_iff [Decidable c] {k : α → Action σ ε β} {m : Action σ ε β} :
    exec (if c then throw e >>= k else m) s = (.ok b, s') ↔ ¬c ∧ exec m s = (.ok b, s') := by
  by_cases hc : c
  · simp [hc, exec_throw]
  · simp [hc]

theorem exec_ite_throw_eq_ok_iff [Decidable c] {m : Action σ ε α} {b : α} : exec (if c then throw e else m) s =
    (.ok b, s') ↔ ¬c ∧ exec m s = (.ok b, s') := by
  by_cases hc : c
  · simp [hc, exec_throw]
  · simp [hc]

theorem exec_when_eq_ok_iff [Decidable c] {x : Action σ ε Unit} {k : Unit → Action σ ε β} :
    exec (if c then x >>= k else k ()) s = (.ok b, s') ↔ ∃ s₁, (c → exec x s = (.ok (), s₁)) ∧ (¬c → s = s₁) ∧
    exec (k ()) s₁ = (.ok b, s') := by
  by_cases hc : c
  · simp only [hc, if_true, exec_bind_eq_ok_iff, forall_const, not_true, false_implies, true_and]
    constructor
    · rintro ⟨⟨⟩, s₁, hx, hk⟩
      exact ⟨s₁, hx, hk⟩
    · rintro ⟨s₁, hx, hk⟩
      exact ⟨(), s₁, hx, hk⟩
  · simp [hc]

theorem exec_mapError_eq_ok_iff {g : ε → ε} : exec (mapError g x) s = (.ok a, s') ↔ exec x s = (.ok a, s') := by
  unfold mapError
  rw [exec_step]
  rcases exec x s with ⟨e | b, s₁⟩ <;> simp [mapError_ok, mapError_error]

/-! ## Failure without a trace -/

/-- The action never writes. -/
def ReadOnly (x : Action σ ε α) : Prop := ∀ s, (exec x s).2 = s

/-- The action never fails. -/
def Total (x : Action σ ε α) : Prop := ∀ s, ∃ a s', exec x s = (.ok a, s')

/-- Where the action fails, the state is as it was. -/
def Atomic (x : Action σ ε α) : Prop := ∀ s e s', exec x s = (.error e, s') → s' = s

variable {x : Action σ ε α} {f : α → Action σ ε β}

theorem Total.atomic (hx : Total x) : Atomic x := by
  intro s e s' h
  obtain ⟨a, s₁, hok⟩ := hx s
  rw [hok] at h
  cases h

theorem readOnly_pure (a : α) : ReadOnly (pure a : Action σ ε α) := fun _ => rfl

theorem readOnly_throw (e : ε) : ReadOnly (throw e : Action σ ε α) := fun _ => rfl

theorem total_pure (a : α) : Total (pure a : Action σ ε α) := fun s => ⟨a, s, rfl⟩

theorem ReadOnly.bind (hx : ReadOnly x) (hf : ∀ a, ReadOnly (f a)) : ReadOnly (x >>= f) := by
  intro s
  have hs := hx s
  rcases hex : exec x s with ⟨e | a, s₁⟩
  · rw [exec_bind_of_error hex]
    rwa [hex] at hs
  · rw [exec_bind_of_ok hex]
    rw [hex] at hs
    exact (hf a s₁).trans hs

theorem ReadOnly.bind_atomic (hx : ReadOnly x) (hf : ∀ a, Atomic (f a)) : Atomic (x >>= f) := by
  intro s e s' h
  have hs := hx s
  rcases hex : exec x s with ⟨e' | a, s₁⟩
  · rw [exec_bind_of_error hex] at h
    rw [hex] at hs
    cases h
    exact hs
  · rw [exec_bind_of_ok hex] at h
    rw [hex] at hs
    exact (hf a s₁ e s' h).trans hs

theorem Total.bind (hx : Total x) (hf : ∀ a, Total (f a)) : Total (x >>= f) := by
  intro s
  obtain ⟨a, s₁, ha⟩ := hx s
  obtain ⟨b, s₂, hb⟩ := hf a s₁
  exact ⟨b, s₂, (exec_bind_of_ok ha).trans hb⟩

/-! ## Acceptance conditions -/

/-- The action succeeds at `s` exactly under `G`, and leaves what `obs` shows as `t`. -/
structure Meets {τ : Type} (obs : σ → τ) (x : Action σ ε α) (s : σ) (G : Prop) (t : τ) : Prop where
  sound : ∀ a s', exec x s = (.ok a, s') → G ∧ obs s' = t
  complete : G → ∃ a s', exec x s = (.ok a, s')

namespace Meets

variable {τ : Type} {obs : σ → τ} {G : Prop} {t : τ}

theorem of_pure (a : α) (s : σ) : Meets obs (pure a : Action σ ε α) s True (obs s) :=
  ⟨fun _ _ h => ⟨trivial, by rw [(exec_pure_eq_ok_iff.1 h).2]⟩, fun _ => ⟨a, s, rfl⟩⟩

theorem of_throw (e : ε) (s : σ) (t : τ) : Meets obs (throw e : Action σ ε α) s False t :=
  ⟨fun _ _ h => (exec_throw_eq_ok_iff.1 h).elim, fun h => h.elim⟩

theorem congr {G' : Prop} {t' : τ} (hx : Meets obs x s G t) (hG : G ↔ G') (ht : G → t = t') :
    Meets obs x s G' t' := by
  constructor
  · intro a s' h
    obtain ⟨hg, hobs⟩ := hx.sound a s' h
    exact ⟨hG.1 hg, hobs.trans (ht hg)⟩
  · intro hg
    exact hx.complete (hG.2 hg)

theorem bind {a : α} {s₁ : σ} (hx : exec x s = (.ok a, s₁)) (hf : Meets obs (f a) s₁ G t) :
    Meets obs (x >>= f) s G t := by
  constructor
  · intro b s' h
    rw [exec_bind_of_ok hx] at h
    exact hf.sound b s' h
  · intro hG
    rw [exec_bind_of_ok hx]
    exact hf.complete hG

theorem guard {γ : Type} {c : Prop} [Decidable c] {e : ε} {k : γ → Action σ ε α} (hx : Meets obs x s G t) :
    Meets obs (if c then throw e >>= k else x) s (¬c ∧ G) t := by
  constructor
  · intro a s' h
    obtain ⟨hc, h⟩ := exec_guard_eq_ok_iff.1 h
    exact ⟨⟨hc, (hx.sound a s' h).1⟩, (hx.sound a s' h).2⟩
  · rintro ⟨hc, hG⟩
    obtain ⟨a, s', h⟩ := hx.complete hG
    exact ⟨a, s', exec_guard_eq_ok_iff.2 ⟨hc, h⟩⟩

theorem ite_throw {c : Prop} [Decidable c] {e : ε} (hx : Meets obs x s G t) :
    Meets obs (if c then throw e else x) s (¬c ∧ G) t := by
  by_cases hc : c
  · rw [if_pos hc]
    exact (of_throw e s t).congr (by simp [hc]) fun h => h.elim
  · rw [if_neg hc]
    exact hx.congr (by simp [hc]) fun _ => rfl

theorem check {C : Prop} {x : Action σ ε Unit} {f : Unit → Action σ ε β}
    (hx : ∀ s', exec x s = (.ok (), s') ↔ C ∧ s = s') (hf : Meets obs (f ()) s G t) :
    Meets obs (x >>= f) s (C ∧ G) t := by
  constructor
  · intro b s' h
    obtain ⟨⟨⟩, s₁, h₁, h₂⟩ := exec_bind_eq_ok_iff.1 h
    obtain ⟨hC, rfl⟩ := (hx s₁).1 h₁
    exact ⟨⟨hC, (hf.sound b s' h₂).1⟩, (hf.sound b s' h₂).2⟩
  · rintro ⟨hC, hG⟩
    obtain ⟨b, s', h⟩ := hf.complete hG
    exact ⟨b, s', exec_bind_eq_ok_iff.2 ⟨(), s, (hx s).2 ⟨hC, rfl⟩, h⟩⟩

theorem map (g : α → β) (hx : Meets obs x s G t) : Meets obs (g <$> x) s G t := by
  have hmap : ∀ {b : β} {s' : σ}, exec (g <$> x) s = (.ok b, s') ↔
      ∃ a, exec x s = (.ok a, s') ∧ g a = b := by
    intro b s'
    rw [map_eq_pure_bind, exec_bind_eq_ok_iff]
    constructor
    · rintro ⟨a, s₁, ha, hb⟩
      obtain ⟨rfl, rfl⟩ := exec_pure_eq_ok_iff.1 hb
      exact ⟨a, ha, rfl⟩
    · rintro ⟨a, ha, rfl⟩
      exact ⟨a, s', ha, rfl⟩
  constructor
  · intro b s' h
    obtain ⟨a, ha, -⟩ := hmap.1 h
    exact hx.sound a s' ha
  · intro hG
    obtain ⟨a, s', ha⟩ := hx.complete hG
    exact ⟨g a, s', hmap.2 ⟨a, ha, rfl⟩⟩

end Meets

end Fallible
