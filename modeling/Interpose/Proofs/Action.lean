import Interpose.Engine.Platform

/-!
# Results of attempts and operations

How a result of a composed attempt or operation comes about: what succeeded, and where it failed.
-/

namespace Interpose

namespace Attempt
variable {α β : Type} {x : Attempt α} {f : α → Attempt β} {b : β} {e : Failure}

theorem bind_eq_ok : x >>= f = .ok b ↔ ∃ a, x = .ok a ∧ f a = .ok b := by
  cases x <;> simp [bind, Except.bind]

theorem bind_eq_error : x >>= f = .error e ↔ x = .error e ∨ ∃ a, x = .ok a ∧ f a = .error e := by
  cases x <;> simp [bind, Except.bind]

theorem toOption_eq_some {a : α} : x.toOption = some a ↔ x = .ok a := by
  cases x <;> simp [Except.toOption]

/-- What reads back each element reads back a whole list. -/
theorem mapM_map_eq_ok {g : β → α} {f : α → Attempt β} (h : ∀ b, f (g b) = .ok b) (l : List β) :
    (l.map g).mapM f = .ok l := by
  induction l with
  | nil => rfl
  | cons b l ih =>
    rw [List.map_cons, List.mapM_cons, h, ih]
    rfl

theorem checked_eq_ok {n m : Nat} : checked n = .ok m ↔ n < wordLimit ∧ m = n := by
  by_cases h : n < wordLimit <;> simp [checked, h, eq_comm]

theorem checked_error {n : Nat} (h : checked n = .error e) : e = .fault := by
  unfold checked at h
  split at h <;> cases h
  rfl

theorem plus_eq_ok {a : Address} {n m : Nat} :
    a.plus n = .ok m ↔ a.toNat + n < wordLimit ∧ m = a.toNat + n := checked_eq_ok

end Attempt

namespace Action
variable {σ α β : Type} {x : Action σ α} {f : α → Action σ β} {g : σ → σ} {a : α} {b : β}
  {e : Failure} {s s' : σ}

theorem bind_run (h : x s = .ok a s') : (x >>= f) s = f a s' := by
  simp only [bind, EStateM.bind, h]

theorem bind_eq_ok : (x >>= f) s = .ok b s' ↔ ∃ a t, x s = .ok a t ∧ f a t = .ok b s' := by
  cases hx : x s <;> simp [bind, EStateM.bind, hx, and_assoc]

theorem bind_eq_error : (x >>= f) s = .error e s' ↔
    x s = .error e s' ∨ ∃ a t, x s = .ok a t ∧ f a t = .error e s' := by
  cases hx : x s <;> simp [bind, EStateM.bind, hx, and_assoc]

theorem bind_run_error (h : x s = .error e s') : (x >>= f) s = .error e s' :=
  bind_eq_error.mpr (Or.inl h)

theorem bind_congr_left {y : Action σ α} (h : x s = y s) : (x >>= f) s = (y >>= f) s := by
  simp only [bind, EStateM.bind, h]

/-- Only what an operation returns from here matters to what follows it. -/
theorem bind_congr_ok {f' : α → Action σ β} (h : ∀ a t, x s = .ok a t → f a t = f' a t) :
    (x >>= f) s = (x >>= f') s := by
  simp only [bind, EStateM.bind]
  cases hx : x s with
  | ok a t => exact h a t hx
  | error => rfl

/-- What a run comes to can be evaluated. -/
theorem exists_ok {P : α → σ → Prop} [∀ a t, Decidable (P a t)]
    (h : (match x s with | .ok a t => decide (P a t) | .error .. => false) = true) :
    ∃ a t, x s = .ok a t ∧ P a t := by
  cases hx : x s with
  | ok a t =>
    rw [hx] at h
    exact ⟨a, t, rfl, of_decide_eq_true h⟩
  | error =>
    rw [hx] at h
    cases h

theorem exists_refused {P : σ → Prop} [∀ t, Decidable (P t)]
    (h : (match x s with
      | .ok .. => false
      | .error .fault _ => false
      | .error (.refused _) t => decide (P t)) = true) :
    ∃ why t, x s = .error (.refused why) t ∧ P t := by
  cases hx : x s with
  | ok a t =>
    rw [hx] at h
    cases h
  | error e t =>
    rw [hx] at h
    cases e with
    | fault => cases h
    | refused why => exact ⟨why, t, rfl, of_decide_eq_true h⟩

theorem pure_eq_ok {a' : α} : (pure a : Action σ α) s = .ok a' s' ↔ a' = a ∧ s' = s := by
  simp [pure, EStateM.pure, eq_comm]

theorem pure_eq_error : (pure a : Action σ α) s = .error e s' ↔ False := by
  simp [pure, EStateM.pure]

theorem throw_eq_ok : (throw e : Action σ α) s = .ok a s' ↔ False := by
  show EStateM.Result.error e s = .ok a s' ↔ False
  simp

theorem throw_eq_error {e' : Failure} :
    (throw e : Action σ α) s = .error e' s' ↔ e' = e ∧ s' = s := by
  show EStateM.Result.error e s = .error e' s' ↔ e' = e ∧ s' = s
  simp [eq_comm]

theorem get_run : (get : Action σ σ) s = .ok s s := rfl

theorem get_eq_ok {t : σ} : (get : Action σ σ) s = .ok t s' ↔ t = s ∧ s' = s := by
  show EStateM.Result.ok s s = .ok t s' ↔ t = s ∧ s' = s
  simp [eq_comm]

theorem get_eq_error : (get : Action σ σ) s = .error e s' ↔ False := by
  show EStateM.Result.ok s s = .error e s' ↔ False
  simp

theorem modify_eq_ok {u : PUnit} : (modify g : Action σ PUnit) s = .ok u s' ↔ s' = g s := by
  show EStateM.Result.ok PUnit.unit (g s) = .ok u s' ↔ s' = g s
  simp [eq_comm]

theorem modify_eq_error : (modify g : Action σ PUnit) s = .error e s' ↔ False := by
  show EStateM.Result.ok PUnit.unit (g s) = .error e s' ↔ False
  simp

theorem lift_eq_ok {x : Attempt α} : Attempt.lift x s = .ok a s' ↔ x = .ok a ∧ s' = s := by
  unfold Attempt.lift
  cases x <;> simp [eq_comm]

theorem lift_eq_error {x : Attempt α} :
    Attempt.lift x s = .error e s' ↔ x = .error e ∧ s' = s := by
  unfold Attempt.lift
  cases x <;> simp [eq_comm]

theorem guarded_eq_ok : Action.guarded x g s = .ok a s' ↔ x s = .ok a s' := by
  cases hx : x s <;> simp [Action.guarded, hx]

theorem guarded_eq_error :
    Action.guarded x g s = .error e s' ↔ ∃ t, x s = .error e t ∧ s' = g t := by
  cases hx : x s <;> simp [Action.guarded, hx, and_assoc, eq_comm]

theorem attempt_eq_ok {r : Except Error α} : x.attempt s = .ok r s' ↔
    (∃ a, r = .ok a ∧ x s = .ok a s') ∨ ∃ why, r = .error why ∧ x s = .error (.refused why) s' := by
  rcases hx : x s with ⟨a, t⟩ | ⟨_ | _, t⟩ <;> grind [Action.attempt]

theorem attempt_eq_error :
    x.attempt s = .error e s' ↔ e = .fault ∧ x s = .error .fault s' := by
  rcases hx : x s with ⟨a, t⟩ | ⟨_ | _, t⟩ <;> grind [Action.attempt]

end Action

end Interpose
