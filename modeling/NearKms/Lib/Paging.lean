import NearKms.Lib.Transition

/-!
# Reading a list page by page while it grows

A client asks for one page after the other until a page is not full, and the machine
may take any steps between two reads. If every step only appends to the list, the
pages together are the list as it stands at the last read.
-/

namespace Paging

universe u v w

variable {σ : Type u} {ℓ : Type v} {α : Type w}

/-- Page `i` of a list. -/
def page (limit i : Nat) (xs : List α) : List α := (xs.drop (i * limit)).take limit

/-- A full page does not change when the list grows. -/
theorem page_of_prefix {limit i : Nat} {xs ys : List α} (h : xs <+: ys)
    (hfull : (page limit i xs).length = limit) : page limit i ys = page limit i xs := by
  rcases h with ⟨more, rfl⟩
  unfold page at hfull ⊢
  have hlen : limit ≤ (xs.drop (i * limit)).length := by
    rw [List.length_take] at hfull
    omega
  by_cases hoff : i * limit ≤ xs.length
  · rw [List.drop_append_of_le_length hoff, List.take_append_of_le_length hlen]
  · -- nothing stands at the offset, so full pages are empty
    have hzero : limit = 0 := by
      rw [List.length_drop] at hlen
      omega
    rw [hzero, List.take_zero, List.take_zero]

/-- A page that is not full is all that is left of the list. -/
theorem page_of_short {limit i : Nat} {xs : List α} (h : (page limit i xs).length < limit) :
    page limit i xs = xs.drop (i * limit) := by
  unfold page at h ⊢
  rw [List.length_take] at h
  exact List.take_of_length_le (by omega)

/-- A full page and what follows it. -/
theorem page_append_drop (limit i : Nat) (xs : List α) :
    page limit i xs ++ xs.drop ((i + 1) * limit) = xs.drop (i * limit) := by
  have hoff : (i + 1) * limit = i * limit + limit := Nat.succ_mul i limit
  rw [page, hoff, ← List.drop_drop, List.take_append_drop]

variable (next : σ → ℓ → σ) (items : σ → List α)

/-- The pages from page `i` on, until one is not full, and the steps taken between
the reads. -/
inductive Session (limit : Nat) : σ → Nat → List ℓ → List (List α) → Prop
  | last {s : σ} {i : Nat} : (page limit i (items s)).length < limit →
      Session limit s i [] [page limit i (items s)]
  | more {s : σ} {i : Nat} {between ls : List ℓ} {pages : List (List α)} :
      (page limit i (items s)).length = limit →
      Session limit (Transition.run next s between) (i + 1) ls pages →
      Session limit s i (between ++ ls) (page limit i (items s) :: pages)

variable {next items}

theorem prefix_run (hgrow : ∀ s l, items s <+: items (next s l)) (s : σ) (ls : List ℓ) :
    items s <+: items (Transition.run next s ls) := by
  have hstep : ∀ s' l, items s <+: items s' → items s <+: items (next s' l) := by
    intro s' l h
    exact h.trans (hgrow s' l)
  exact Transition.run_invariant hstep s ls (List.prefix_refl _)

/-- The pages are the rest of the list, as it stands at the last read. -/
theorem Session.flatten_eq (hgrow : ∀ s l, items s <+: items (next s l)) {limit i : Nat} {s : σ}
    {ls : List ℓ} {pages : List (List α)} (h : Session next items limit s i ls pages) :
    pages.flatten = (items (Transition.run next s ls)).drop (i * limit) := by
  induction h with
  | last hshort =>
      rw [List.flatten_singleton, page_of_short hshort]
      rfl
  | @more s i between ls pages hfull _ ih =>
      -- the first page was full, so it reads the same in the list at the end
      rw [List.flatten_cons, ih, Transition.run_append]
      have hgrown : items s <+:
          items (Transition.run next (Transition.run next s between) ls) :=
        (prefix_run hgrow s between).trans (prefix_run hgrow _ ls)
      rw [← page_of_prefix hgrown hfull, page_append_drop]

end Paging
