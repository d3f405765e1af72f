import Mathlib.Data.List.Induction
import Mathlib.Data.Set.Function

/-!
# Extend chains

A register that can only be extended holds `foldl f init xs`, where `f` hashes
the old value together with the new entry. If `f` does not collide on the steps
taken in two replays and never produces the start value, the final value
determines the whole list of entries: the chain is inverted from its end.
-/

namespace HashChain

universe u v w

variable {δ : Type u} {β : Type v} (f : δ → β → δ)

/-- The steps of a replay: each entry with the value it extends. -/
def steps : δ → List β → List (δ × β)
  | _, [] => []
  | d, x :: xs => (d, x) :: steps (f d x) xs

@[simp] theorem steps_nil (d : δ) : steps f d [] = [] := rfl

@[simp] theorem steps_cons (d : δ) (x : β) (xs : List β) :
    steps f d (x :: xs) = (d, x) :: steps f (f d x) xs := rfl

theorem steps_concat (d : δ) (xs : List β) (x : β) :
    steps f d (xs ++ [x]) = steps f d xs ++ [(xs.foldl f d, x)] := by
  induction xs generalizing d with
  | nil => rfl
  | cons y ys ih => simp [ih]

variable {f}

/-- Two replays from the same start that end in the same value have the same
entries. The start value must not be a value of the chain: otherwise one replay
could continue a suffix of the other. -/
theorem entries_eq_of_foldl_eq {init : δ} {xs ys : List β}
    (hinj : Set.InjOn (fun p : δ × β => f p.1 p.2)
      {p | p ∈ steps f init xs ∨ p ∈ steps f init ys})
    (hstart : ∀ p, p ∈ steps f init xs ∨ p ∈ steps f init ys → f p.1 p.2 ≠ init)
    (heq : xs.foldl f init = ys.foldl f init) : xs = ys := by
  induction xs using List.reverseRecOn generalizing ys with
  | nil =>
      induction ys using List.reverseRecOn with
      | nil => rfl
      | append_singleton ys y _ =>
          have hy : (ys.foldl f init, y) ∈ steps f init (ys ++ [y]) := by
            simp [steps_concat]
          -- the longer replay would produce the start value
          refine absurd ?_ (hstart _ (Or.inr hy))
          simpa using heq.symm
  | append_singleton xs x ih =>
      have hx : (xs.foldl f init, x) ∈ steps f init (xs ++ [x]) := by
        simp [steps_concat]
      induction ys using List.reverseRecOn with
      | nil =>
          refine absurd ?_ (hstart _ (Or.inl hx))
          simpa using heq
      | append_singleton ys y _ =>
          have hy : (ys.foldl f init, y) ∈ steps f init (ys ++ [y]) := by
            simp [steps_concat]
          -- the last steps coincide, so both the last entries and the values
          -- before them do
          have hlast : (xs.foldl f init, x) = (ys.foldl f init, y) := by
            refine hinj (Or.inl hx) (Or.inr hy) ?_
            simpa using heq
          obtain ⟨hd, rfl⟩ := Prod.mk.inj hlast
          have hinit : xs = ys := by
            refine ih (hinj.mono ?_) ?_ hd
            · rintro p (hp | hp)
              · exact Or.inl (by simp [steps_concat, hp])
              · exact Or.inr (by simp [steps_concat, hp])
            · rintro p (hp | hp)
              · exact hstart p (Or.inl (by simp [steps_concat, hp]))
              · exact hstart p (Or.inr (by simp [steps_concat, hp]))
          rw [hinit]

/-- A function that does not collide on the entries of two lists tells them
apart by their images. -/
theorem map_inj_of_injOn {α : Type u} {γ : Type w} {h : α → γ} {xs ys : List α}
    (hinj : Set.InjOn h {x | x ∈ xs ∨ x ∈ ys}) (heq : xs.map h = ys.map h) : xs = ys := by
  induction xs generalizing ys with
  | nil => simpa using heq.symm
  | cons x xs ih =>
      cases ys with
      | nil => simp at heq
      | cons y ys =>
          obtain ⟨hxy, htail⟩ := List.cons.inj heq
          have hhead : x = y :=
            hinj (Or.inl List.mem_cons_self) (Or.inr List.mem_cons_self) hxy
          have hsub : {z | z ∈ xs ∨ z ∈ ys} ⊆ {z | z ∈ x :: xs ∨ z ∈ y :: ys} := by
            rintro z (hz | hz)
            · exact Or.inl (List.mem_cons_of_mem x hz)
            · exact Or.inr (List.mem_cons_of_mem y hz)
          rw [hhead, ih (hinj.mono hsub) htail]

end HashChain
