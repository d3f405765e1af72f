import Mathlib.Data.List.Basic

/-!
# Checks in a row

A validator makes one check after the other and stops at the first that fails. It
succeeds if all of them do, and its error is that of the first one that does not.
-/

namespace Checks

variable {ε α : Type}

theorem bind_eq_error {β γ : Type} {x : Except ε β} {f : β → Except ε γ} {e : ε} :
    (x >>= f) = .error e ↔ x = .error e ∨ ∃ b, x = .ok b ∧ f b = .error e := by
  cases x with
  | error e' => simp [bind, Except.bind]
  | ok b => simp [bind, Except.bind]

/-- Forgetting the result of a computation does not change whether it fails. -/
theorem map_eq_error {β γ : Type} {x : Except ε β} {f : β → γ} {e : ε} :
    f <$> x = .error e ↔ x = .error e := by
  cases x <;> simp [Functor.map, Except.map]

theorem map_unit_eq_ok {β : Type} {x : Except ε β} :
    (fun _ => ()) <$> x = .ok () ↔ ∃ b, x = .ok b := by
  cases x <;> simp [Functor.map, Except.map]

/-- All checks pass. -/
theorem forM_eq_ok {check : α → Except ε Unit} {xs : List α} :
    forM xs check = .ok () ↔ ∀ x ∈ xs, check x = .ok () := by
  induction xs with
  | nil => simp [pure, Except.pure]
  | cons x xs ih =>
      rw [List.forM_cons, List.forall_mem_cons, ← ih]
      cases hx : check x with
      | error e => simp [bind, Except.bind]
      | ok u => simp [bind, Except.bind]

/-- Some check fails, and it is the first to do so. -/
theorem forM_eq_error {check : α → Except ε Unit} {xs : List α} {e : ε} :
    forM xs check = .error e ↔
      ∃ pre x post, xs = pre ++ x :: post ∧ (∀ y ∈ pre, check y = .ok ()) ∧
        check x = .error e := by
  induction xs with
  | nil => simp [pure, Except.pure]
  | cons x xs ih =>
      rw [List.forM_cons, bind_eq_error]
      constructor
      · intro h
        rcases h with hx | ⟨u, hx, hxs⟩
        · exact ⟨[], x, xs, rfl, by simp, hx⟩
        · rcases ih.1 hxs with ⟨pre, y, post, rfl, hpre, hy⟩
          refine ⟨x :: pre, y, post, rfl, ?_, hy⟩
          exact List.forall_mem_cons.2 ⟨hx, hpre⟩
      · intro h
        rcases h with ⟨pre, y, post, hlist, hpre, hy⟩
        -- the first check fails itself, or it is one of those before
        cases pre with
        | nil =>
            obtain ⟨rfl, rfl⟩ := List.cons.inj hlist
            exact Or.inl hy
        | cons p pre =>
            obtain ⟨rfl, rfl⟩ := List.cons.inj hlist
            rw [List.forall_mem_cons] at hpre
            exact Or.inr ⟨(), hpre.1, ih.2 ⟨pre, y, post, rfl, hpre.2, hy⟩⟩

end Checks
