import Mathlib.Data.List.Basic

/-!
# Unescaped separators

`a ++ sep :: x` does not determine `a` and `x` when `a` may contain the
separator. It does when one of the two candidates for `a` is free of separators
and the other does not continue it across one.
-/

namespace Separator

universe u

variable {α : Type u} {sep : α}

/-- A separator-free name is recovered, unless the other name extends it by a
separator. -/
theorem append_sep_inj {a b x y : List α} (ha : sep ∉ a) (hb : ¬ (a ++ [sep]) <+: b)
    (h : a ++ sep :: x = b ++ sep :: y) : a = b ∧ x = y := by
  rcases List.append_eq_append_iff.1 h with ⟨c, rfl, hc⟩ | ⟨c, rfl, hc⟩
  · cases c with
    | nil => simpa using hc
    | cons d c =>
        -- `b` continues `a` across the separator
        obtain ⟨rfl, -⟩ := List.cons.inj hc
        exact absurd ⟨c, by simp⟩ hb
  · cases c with
    | nil => simpa using hc.symm
    | cons d c =>
        -- `a` contains the separator that ends `b`
        obtain ⟨rfl, -⟩ := List.cons.inj hc
        exact absurd (by simp) ha

/-- Two separator-free names are recovered. -/
theorem append_sep_inj_of_notMem {a b x y : List α} (ha : sep ∉ a) (hb : sep ∉ b)
    (h : a ++ sep :: x = b ++ sep :: y) : a = b ∧ x = y := by
  refine append_sep_inj ha ?_ h
  intro hpre
  exact hb (hpre.subset (by simp))

end Separator
