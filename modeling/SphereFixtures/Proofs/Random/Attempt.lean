import SphereFixtures.Random.Words

/-!
# Draws and attempts as functions of the source

A draw takes a source to a value and to the source that is left, and an attempt
takes it to a value or an error.  What a sequence of two does follows from what
each of them does.
-/

namespace SphereFixtures

theorem Draw.bind_apply {σ α β : Type} (x : Draw σ α) (f : α -> Draw σ β)
    (s : σ) : (x >>= f) s = f (x s).1 (x s).2 := rfl

theorem Draw.run_bind_eq {σ α β : Type} (x : Draw σ α) (f : α -> Draw σ β)
    (s : σ) : (x >>= f).run s = (f (x.run s).1).run (x.run s).2 := rfl

namespace Attempt

variable {ε σ α β : Type}

theorem bind_apply (x : Attempt ε σ α) (f : α -> Attempt ε σ β) (s : σ) :
    (x >>= f) s =
      match x s with
      | (.ok a, t) => f a t
      | (.error error, t) => (.error error, t) := by
  show (match x s with | (result, t) => ExceptT.bindCont f result t) = _
  rcases x s with ⟨_ | _, _⟩ <;> rfl

/-- A draw within an attempt does not fail. -/
theorem draw_bind_apply (x : Draw σ α) (f : α -> Attempt ε σ β) (s : σ) :
    (liftM x >>= f : Attempt ε σ β) s = f (x s).1 (x s).2 := rfl

/-- What succeeds as a whole has succeeded in its first part. -/
theorem exists_of_bind_eq_ok {x : Attempt ε σ α} {f : α -> Attempt ε σ β}
    {s u : σ} {b : β} (h : (x >>= f) s = (.ok b, u)) :
    exists a t, x s = (.ok a, t) ∧ f a t = (.ok b, u) := by
  rw [bind_apply] at h
  rcases hx : x s with ⟨error | a, t⟩
  · rw [hx] at h
    cases h
  · rw [hx] at h
    exact ⟨a, t, rfl, h⟩

variable {ε' : Type}

theorem adapt_apply (rename : ε -> ε') (x : Attempt ε σ α) (s : σ) :
    (ExceptT.adapt rename x : Attempt ε' σ α) s =
      match x s with
      | (.ok a, t) => (.ok a, t)
      | (.error error, t) => (.error (rename error), t) := by
  show (match x s with | (result, t) => (result.mapError rename, t)) = _
  rcases x s with ⟨_ | _, _⟩ <;> rfl

/-- Renaming the errors does not change what becomes of a result. -/
theorem adapt_bind_pure (rename : ε -> ε') (x : Attempt ε σ α) (f : α -> β) :
    (ExceptT.adapt rename x >>= fun a => pure (f a) : Attempt ε' σ β) =
      ExceptT.adapt rename (x >>= fun a => pure (f a)) := by
  funext s
  rw [bind_apply, adapt_apply, adapt_apply, bind_apply]
  rcases x s with ⟨_ | _, _⟩ <;> rfl

end Attempt

end SphereFixtures
