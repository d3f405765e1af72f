import Mathlib.Data.List.Induction
import Mathlib.Data.List.Nodup
import Mathlib.Data.List.Perm.Basic

/-!
# Insertion-ordered sets

A set stored as a list without repetitions. Inserting appends, removing swaps
the last element into the freed place, so iteration is in insertion order until
something is removed.
-/

universe u

/-- A finite set with an iteration order. -/
structure IterableSet (α : Type u) where
  elements : List α
  nodup : elements.Nodup

namespace IterableSet

variable {α : Type u}

instance : Membership α (IterableSet α) := ⟨fun s a => a ∈ s.elements⟩

theorem mem_def {s : IterableSet α} {a : α} : a ∈ s ↔ a ∈ s.elements := Iff.rfl

@[ext] theorem ext_elements {s t : IterableSet α} (h : s.elements = t.elements) : s = t := by
  cases s
  cases t
  cases h
  rfl

/-- The empty set. -/
def new : IterableSet α := ⟨[], List.nodup_nil⟩

@[simp] theorem notMem_new {a : α} : ¬ a ∈ (new : IterableSet α) := by
  simp [mem_def, new]

variable [DecidableEq α]

instance (a : α) (s : IterableSet α) : Decidable (a ∈ s) :=
  inferInstanceAs (Decidable (a ∈ s.elements))

instance : DecidableEq (IterableSet α) := fun s t =>
  decidable_of_iff (s.elements = t.elements) ⟨ext_elements, fun h => h ▸ rfl⟩

/-- Membership as the code asks for it. -/
def contains (s : IterableSet α) (a : α) : Bool := decide (a ∈ s)

@[simp] theorem contains_iff {s : IterableSet α} {a : α} : s.contains a = true ↔ a ∈ s := by
  simp [contains]

/-! ## Insertion -/

/-- Appends the element unless it is there. -/
def insert (s : IterableSet α) (a : α) : IterableSet α :=
  if h : a ∈ s.elements then s
  else ⟨s.elements ++ [a], List.nodup_append.2 ⟨s.nodup, by simp, by
    intro b hb c hc
    rw [List.mem_singleton] at hc
    rintro rfl
    exact h (hc ▸ hb)⟩⟩

@[simp] theorem mem_insert {s : IterableSet α} {a b : α} :
    b ∈ s.insert a ↔ b ∈ s ∨ b = a := by
  by_cases h : a ∈ s.elements
  · simp only [insert, dif_pos h, mem_def]
    constructor
    · exact Or.inl
    · rintro (hb | rfl)
      · exact hb
      · exact h
  · simp [insert, dif_neg h, mem_def]

/-- Inserting only appends. -/
theorem prefix_insert (s : IterableSet α) (a : α) : s.elements <+: (s.insert a).elements := by
  unfold insert
  split
  · exact List.prefix_refl _
  · exact List.prefix_append _ _

theorem prefix_foldl_insert (s : IterableSet α) (xs : List α) :
    s.elements <+: (xs.foldl insert s).elements := by
  induction xs generalizing s with
  | nil => exact List.prefix_refl _
  | cons x xs ih => exact (prefix_insert s x).trans (ih (s.insert x))

/-- The elements inserted one after the other, each where it occurs first. -/
theorem elements_foldl_insert (xs : List α) :
    (xs.foldl insert new).elements = xs.eraseDups := by
  induction xs using List.reverseRecOn with
  | nil => rfl
  | append_singleton xs x ih =>
      rw [List.foldl_append, List.foldl_cons, List.foldl_nil, List.eraseDups_append, ← ih]
      by_cases hx : x ∈ (xs.foldl insert new).elements
      · -- a repetition: neither side grows
        have hxs : x ∈ xs := List.mem_eraseDups.1 (ih ▸ hx)
        have hremove : [x].removeAll xs = [] := by simp [List.removeAll, hxs]
        rw [insert, dif_pos hx, hremove, List.eraseDups_nil, List.append_nil]
      · have hxs : x ∉ xs := fun hxs => hx (ih ▸ List.mem_eraseDups.2 hxs)
        have hkeep : [x].removeAll xs = [x] := by simp [List.removeAll, hxs]
        rw [insert, dif_neg hx, hkeep]
        rfl

/-! ## Removal -/

/-- Drops the first occurrence and moves the last element into its place. -/
def swapRemove (a : α) : List α → List α
  | [] => []
  | x :: xs =>
      if x = a then
        match xs.getLast? with
        | none => []
        | some last => last :: xs.dropLast
      else x :: swapRemove a xs

/-- Up to order, removing by swapping is erasing. -/
theorem swapRemove_perm_erase (a : α) (xs : List α) :
    (swapRemove a xs).Perm (xs.erase a) := by
  induction xs with
  | nil => exact List.Perm.refl []
  | cons x xs ih =>
      by_cases hx : x = a
      · -- found: the last element takes its place
        rw [swapRemove, if_pos hx, hx, List.erase_cons_head]
        cases hlast : xs.getLast? with
        | none =>
            rw [List.getLast?_eq_none_iff.1 hlast]
        | some last =>
            have hxs : xs.dropLast ++ [last] = xs :=
              List.dropLast_append_getLast? last hlast
            calc (last :: xs.dropLast).Perm (xs.dropLast ++ [last]) :=
                  (List.perm_append_singleton last xs.dropLast).symm
              _ = xs := hxs
      · rw [swapRemove, if_neg hx, List.erase_cons_tail (by simpa using hx)]
        exact ih.cons x

/-- Removes the element if it is there. -/
def remove (s : IterableSet α) (a : α) : IterableSet α :=
  ⟨swapRemove a s.elements,
    (swapRemove_perm_erase a s.elements).nodup_iff.2 (s.nodup.erase a)⟩

@[simp] theorem mem_remove {s : IterableSet α} {a b : α} :
    b ∈ s.remove a ↔ b ∈ s ∧ b ≠ a := by
  have hperm := (swapRemove_perm_erase a s.elements).mem_iff (a := b)
  rw [mem_def, remove, hperm, s.nodup.mem_erase_iff, mem_def, and_comm]

theorem mem_foldl_remove {s : IterableSet α} {xs : List α} {b : α} :
    b ∈ xs.foldl remove s ↔ b ∈ s ∧ b ∉ xs := by
  induction xs generalizing s with
  | nil => simp
  | cons x xs ih => rw [List.foldl_cons, ih, mem_remove, List.mem_cons, not_or, and_assoc]

end IterableSet
