import Mathlib.Data.List.Induction

/-!
# Labelled transition functions

A machine is a total function `next : σ → ℓ → σ`; whatever the environment
decides is part of the label. A run is a list of labels, and everything here is
proved by induction on that list: rules for invariants, for properties that
every step of a run has (`AllSteps`), for steps that happened somewhere in a run
(`Occurs`), for what the last step of a kind has left behind (`LastHas`), and for
what the steps of a run emit (`trace`), all of it or the last of it.
-/

namespace Transition

universe u v w x

variable {σ : Type u} {ℓ : Type v} (next : σ → ℓ → σ)

/-- The state in which a run ends. -/
def run (s : σ) (ls : List ℓ) : σ := ls.foldl next s

@[simp] theorem run_nil (s : σ) : run next s [] = s := rfl

@[simp] theorem run_cons (s : σ) (l : ℓ) (ls : List ℓ) :
    run next s (l :: ls) = run next (next s l) ls := rfl

@[simp] theorem run_append (s : σ) (ls ms : List ℓ) :
    run next s (ls ++ ms) = run next (run next s ls) ms :=
  List.foldl_append

/-- A state some run from an initial state ends in. -/
def Reachable (init : σ → Prop) (s : σ) : Prop :=
  ∃ s₀ ls, init s₀ ∧ run next s₀ ls = s

variable {next}

/-- Inductive invariance along a run. -/
theorem run_invariant {inv : σ → Prop} (hstep : ∀ s l, inv s → inv (next s l))
    (s : σ) (ls : List ℓ) (hs : inv s) : inv (run next s ls) := by
  induction ls generalizing s with
  | nil => exact hs
  | cons l ls ih => exact ih (next s l) (hstep s l hs)

/-- Induction on a run that looks at its last step, for properties that speak
about the whole history. -/
theorem run_history {P : List ℓ → σ → Prop} {s : σ} (hnil : P [] s)
    (hstep : ∀ ls l, P ls (run next s ls) → P (ls ++ [l]) (next (run next s ls) l))
    (ls : List ℓ) : P ls (run next s ls) := by
  induction ls using List.reverseRecOn with
  | nil => exact hnil
  | append_singleton ls l ih =>
      have h := hstep ls l ih
      rwa [run_append]

/-- Blocks of steps that each establish one of a family of properties, and steps
that keep them: after all the blocks, all the properties hold. -/
theorem run_flatMap {ι : Type w} {Q P : ι → σ → Prop} {block : ι → List ℓ}
    (hQ : ∀ i s l, Q i s → Q i (next s l)) (hP : ∀ i s l, P i s → P i (next s l))
    (hblock : ∀ i s, Q i s → P i (run next s (block i))) {is : List ι} {s : σ}
    (hs : ∀ i ∈ is, Q i s) : ∀ i ∈ is, P i (run next s (is.flatMap block)) := by
  induction is generalizing s with
  | nil =>
      intro i hi
      cases hi
  | cons j is ih =>
      intro i hi
      rw [List.flatMap_cons, run_append]
      rcases List.mem_cons.1 hi with rfl | hmem
      · -- established by its own block, kept by the others
        exact run_invariant (hP i) _ _ (hblock i s (hs i List.mem_cons_self))
      · refine ih ?_ i hmem
        intro k hk
        exact run_invariant (hQ k) s (block j) (hs k (List.mem_cons_of_mem j hk))

/-! ## Properties of every step -/

variable (next)

/-- `P` holds of every step of the run, at the state in which it is taken. -/
def AllSteps (P : σ → ℓ → Prop) : σ → List ℓ → Prop
  | _, [] => True
  | s, l :: ls => P s l ∧ AllSteps P (next s l) ls

variable {next}

theorem allSteps_append {P : σ → ℓ → Prop} {s : σ} {ls ms : List ℓ} :
    AllSteps next P s (ls ++ ms) ↔
      AllSteps next P s ls ∧ AllSteps next P (run next s ls) ms := by
  induction ls generalizing s with
  | nil => simp [AllSteps]
  | cons l ls ih => simp [AllSteps, ih, and_assoc]

theorem allSteps_iff {P : σ → ℓ → Prop} {s : σ} {ls : List ℓ} :
    AllSteps next P s ls ↔ ∀ pre l post, ls = pre ++ l :: post → P (run next s pre) l := by
  induction ls generalizing s with
  | nil => simp [AllSteps]
  | cons k ks ih =>
      rw [AllSteps, ih]
      constructor
      · rintro ⟨hk, hks⟩ pre l post h
        cases pre with
        | nil =>
            obtain ⟨rfl, rfl⟩ := List.cons.inj h
            exact hk
        | cons m pre =>
            obtain ⟨rfl, h'⟩ := List.cons.inj h
            exact hks pre l post h'
      · intro h
        exact ⟨h [] k ks rfl, fun pre l post hks => h (k :: pre) l post (by rw [hks]; rfl)⟩

/-- Invariance for runs whose steps all have a property. -/
theorem run_invariant_of_steps {P : σ → ℓ → Prop} {inv : σ → Prop}
    (hstep : ∀ s l, P s l → inv s → inv (next s l)) {s : σ} {ls : List ℓ}
    (hP : AllSteps next P s ls) (hs : inv s) : inv (run next s ls) := by
  induction ls generalizing s with
  | nil => exact hs
  | cons l ls ih => exact ih hP.2 (hstep s l hP.1 hs)

/-- When a step keeps `inv` exactly if it has the property `P`, the states of a
run all satisfy `inv` exactly if its steps all have `P`. -/
theorem forall_prefix_iff_allSteps {P : σ → ℓ → Prop} {inv : σ → Prop}
    (hstep : ∀ s l, inv s → (inv (next s l) ↔ P s l)) {s : σ} (hs : inv s)
    (ls : List ℓ) :
    (∀ pre, pre <+: ls → inv (run next s pre)) ↔ AllSteps next P s ls := by
  induction ls generalizing s with
  | nil => simp [AllSteps, hs]
  | cons l ls ih =>
      constructor
      · intro h
        -- the prefix of length one gives the first step, the others the rest
        have hl : inv (next s l) := h [l] ⟨ls, rfl⟩
        refine ⟨(hstep s l hs).1 hl, (ih hl).1 ?_⟩
        intro pre hpre
        exact h (l :: pre) (List.cons_prefix_cons.2 ⟨rfl, hpre⟩)
      · rintro ⟨hl, hls⟩ pre hpre
        cases pre with
        | nil => exact hs
        | cons m pre =>
            obtain ⟨rfl, hpre'⟩ := List.cons_prefix_cons.1 hpre
            exact (ih ((hstep s m hs).2 hl)).2 hls pre hpre'

/-! ## Steps that happened -/

variable (next)

/-- Some step of the run has `P`, at the state in which it is taken. -/
def Occurs (P : σ → ℓ → Prop) (s : σ) (ls : List ℓ) : Prop :=
  ∃ pre l post, ls = pre ++ l :: post ∧ P (run next s pre) l

variable {next}

theorem not_occurs_nil {P : σ → ℓ → Prop} {s : σ} : ¬ Occurs next P s [] := by
  rintro ⟨pre, l, post, h, -⟩
  simp at h

/-- A step that happened has still happened after one more step. -/
theorem Occurs.concat {P : σ → ℓ → Prop} {s : σ} {ls : List ℓ}
    (h : Occurs next P s ls) (l : ℓ) : Occurs next P s (ls ++ [l]) := by
  obtain ⟨pre, m, post, rfl, hP⟩ := h
  exact ⟨pre, m, post ++ [l], by simp, hP⟩

/-- The last step of a run happened. -/
theorem occurs_last {P : σ → ℓ → Prop} {s : σ} {ls : List ℓ} {l : ℓ}
    (h : P (run next s ls) l) : Occurs next P s (ls ++ [l]) :=
  ⟨ls, l, [], rfl, h⟩

theorem occurs_concat_iff {P : σ → ℓ → Prop} {s : σ} {ls : List ℓ} {l : ℓ} :
    Occurs next P s (ls ++ [l]) ↔ Occurs next P s ls ∨ P (run next s ls) l := by
  constructor
  · rintro ⟨pre, m, post, h, hP⟩
    -- the step is the last one if nothing comes after it
    induction post using List.reverseRecOn with
    | nil =>
        obtain ⟨rfl, rfl⟩ := List.append_inj' h rfl |>.imp id (by simpa using ·)
        exact Or.inr hP
    | append_singleton post k _ =>
        have h' : ls ++ [l] = (pre ++ m :: post) ++ [k] := by simpa using h
        obtain ⟨rfl, -⟩ := List.append_inj' h' rfl
        exact Or.inl ⟨pre, m, post, rfl, hP⟩
  · rintro (h | h)
    · exact h.concat l
    · exact occurs_last h

theorem occurs_append_iff {P : σ → ℓ → Prop} {s : σ} {ls ms : List ℓ} :
    Occurs next P s (ls ++ ms) ↔ Occurs next P s ls ∨ Occurs next P (run next s ls) ms := by
  induction ms using List.reverseRecOn with
  | nil => simp [not_occurs_nil]
  | append_singleton ms l ih =>
      rw [← List.append_assoc, occurs_concat_iff, occurs_concat_iff, ih, run_append, or_assoc]

/-- What no step of the run does, did not happen. -/
theorem not_occurs_of_allSteps {P : σ → ℓ → Prop} {s : σ} {ls : List ℓ}
    (h : AllSteps next (fun s l => ¬ P s l) s ls) : ¬ Occurs next P s ls := by
  rintro ⟨pre, l, post, hls, hP⟩
  exact allSteps_iff.1 h pre l post hls hP

/-- Two steps that happened are the same step, or one came before the other. -/
theorem Occurs.trichotomy {P Q : σ → ℓ → Prop} {s : σ} {ls : List ℓ}
    (hP : Occurs next P s ls) (hQ : Occurs next Q s ls) :
    (∃ pre l, P (run next s pre) l ∧ Q (run next s pre) l) ∨
      (∃ pre l mid m, P (run next s pre) l ∧ Q (run next s (pre ++ l :: mid)) m) ∨
      (∃ pre l mid m, Q (run next s pre) l ∧ P (run next s (pre ++ l :: mid)) m) := by
  obtain ⟨pre, l, post, rfl, hP⟩ := hP
  obtain ⟨pre', m, post', hls, hQ⟩ := hQ
  rcases List.append_eq_append_iff.1 hls with ⟨mid, rfl, hmid⟩ | ⟨mid, rfl, hmid⟩
  · cases mid with
    | nil =>
        obtain ⟨rfl, -⟩ := List.cons.inj hmid
        exact Or.inl ⟨pre, l, hP, by simpa using hQ⟩
    | cons k mid =>
        obtain ⟨rfl, -⟩ := List.cons.inj hmid
        exact Or.inr (Or.inl ⟨pre, l, mid, m, hP, hQ⟩)
  · cases mid with
    | nil =>
        obtain ⟨rfl, -⟩ := List.cons.inj hmid
        exact Or.inl ⟨pre', m, by simpa using hP, hQ⟩
    | cons k mid =>
        obtain ⟨rfl, -⟩ := List.cons.inj hmid
        exact Or.inr (Or.inr ⟨pre', m, mid, l, hQ, hP⟩)

/-! ## The last step of a kind -/

variable (next)

/-- Some step of the run is of kind `K`, and the last one of them has `P`. -/
def LastHas (K P : σ → ℓ → Prop) (s : σ) (ls : List ℓ) : Prop :=
  ∃ pre l post, ls = pre ++ l :: post ∧ K (run next s pre) l ∧ P (run next s pre) l ∧
    AllSteps next (fun s l => ¬ K s l) (run next s (pre ++ [l])) post

variable {next}

theorem not_lastHas_nil {K P : σ → ℓ → Prop} {s : σ} : ¬ LastHas next K P s [] := by
  rintro ⟨pre, l, post, h, -⟩
  simp at h

/-- One more step: it decides if it is of the kind, otherwise the steps before do. -/
theorem lastHas_concat_iff {K P : σ → ℓ → Prop} {s : σ} {ls : List ℓ} {l : ℓ} :
    LastHas next K P s (ls ++ [l]) ↔
      (K (run next s ls) l ∧ P (run next s ls) l) ∨
        (¬ K (run next s ls) l ∧ LastHas next K P s ls) := by
  constructor
  · rintro ⟨pre, m, post, h, hK, hP, hpost⟩
    induction post using List.reverseRecOn with
    | nil =>
        obtain ⟨rfl, rfl⟩ := List.append_inj' h rfl |>.imp id (by simpa using ·)
        exact Or.inl ⟨hK, hP⟩
    | append_singleton post k _ =>
        have h' : ls ++ [l] = (pre ++ m :: post) ++ [k] := by simpa using h
        obtain ⟨rfl, hlk⟩ := List.append_inj' h' rfl
        obtain rfl : l = k := by simpa using hlk
        rcases allSteps_append.1 hpost with ⟨hpost', hl⟩
        have hrun : run next (run next s (pre ++ [m])) post = run next s (pre ++ m :: post) := by
          rw [← run_append, List.append_assoc, List.singleton_append]
        rw [hrun] at hl
        exact Or.inr ⟨hl.1, pre, m, post, rfl, hK, hP, hpost'⟩
  · rintro (⟨hK, hP⟩ | ⟨hK, pre, m, post, rfl, hK', hP', hpost⟩)
    · exact ⟨ls, l, [], rfl, hK, hP, trivial⟩
    · have hrun : run next (run next s (pre ++ [m])) post = run next s (pre ++ m :: post) := by
        rw [← run_append, List.append_assoc, List.singleton_append]
      refine ⟨pre, m, post ++ [l], by simp, hK', hP', allSteps_append.2 ⟨hpost, ?_⟩⟩
      rw [hrun]
      exact ⟨hK, trivial⟩

/-- A property of states that the steps of kind `K` decide, and no other step
touches: it holds exactly if the last of these steps set it. -/
theorem iff_lastHas {K P : σ → ℓ → Prop} {Q : σ → Prop} {s : σ} (hs : ¬ Q s)
    (hset : ∀ s l, K s l → (Q (next s l) ↔ P s l))
    (hkeep : ∀ s l, ¬ K s l → (Q (next s l) ↔ Q s)) (ls : List ℓ) :
    Q (run next s ls) ↔ LastHas next K P s ls := by
  induction ls using List.reverseRecOn with
  | nil => exact iff_of_false hs not_lastHas_nil
  | append_singleton ls l ih =>
      rw [lastHas_concat_iff, run_append, run_cons, run_nil]
      -- the last step decides, or leaves the decision to the steps before
      by_cases hK : K (run next s ls) l
      · simp only [hset _ _ hK, hK, true_and, not_true_eq_false, false_and, or_false]
      · simp only [hkeep _ _ hK, hK, false_and, not_false_eq_true, true_and, false_or, ih]

/-- The same from a state that has the property or not: it holds after a run exactly if
the last of these steps set it, or it held before and none was taken. -/
theorem iff_lastHas_or {K P : σ → ℓ → Prop} {Q : σ → Prop}
    (hset : ∀ s l, K s l → (Q (next s l) ↔ P s l))
    (hkeep : ∀ s l, ¬ K s l → (Q (next s l) ↔ Q s)) (s : σ) (ls : List ℓ) :
    Q (run next s ls) ↔
      LastHas next K P s ls ∨ (Q s ∧ AllSteps next (fun s l => ¬ K s l) s ls) := by
  induction ls using List.reverseRecOn with
  | nil => simp [not_lastHas_nil, AllSteps]
  | append_singleton ls l ih =>
      rw [lastHas_concat_iff, allSteps_append, run_append, run_cons, run_nil]
      by_cases hK : K (run next s ls) l
      · simp only [hset _ _ hK, hK, AllSteps, true_and, not_true_eq_false, false_and, and_false,
          or_false]
      · simp only [hkeep _ _ hK, hK, AllSteps, false_and, not_false_eq_true, true_and, and_true,
          false_or, ih]

/-- A property of states that the steps of kind `K` bring about, and no other step
touches: it holds exactly if one of these steps happened. -/
theorem iff_occurs {K : σ → ℓ → Prop} {Q : σ → Prop} {s : σ} (hs : ¬ Q s)
    (hset : ∀ s l, K s l → Q (next s l))
    (hkeep : ∀ s l, ¬ K s l → (Q (next s l) ↔ Q s)) (ls : List ℓ) :
    Q (run next s ls) ↔ Occurs next K s ls := by
  induction ls using List.reverseRecOn with
  | nil => exact iff_of_false hs not_occurs_nil
  | append_singleton ls l ih =>
      rw [occurs_concat_iff, run_append, run_cons, run_nil]
      by_cases hK : K (run next s ls) l
      · exact iff_of_true (hset _ _ hK) (Or.inr hK)
      · rw [hkeep _ _ hK, ih]
        simp only [hK, or_false]

/-! ## What a run emits -/

section Trace

variable {ε : Type w} {ν : Type x}

variable (next)

/-- Everything the steps of a run emit, in order. -/
def trace (emit : σ → ℓ → List ε) : σ → List ℓ → List ε
  | _, [] => []
  | s, l :: ls => emit s l ++ trace emit (next s l) ls

variable {next}

/-- If what a step emits tells how a view of the state changes, the view of every
state is the fold of everything emitted on the way there. -/
theorem foldl_trace {emit : σ → ℓ → List ε} {view : σ → ν} {apply : ν → ε → ν}
    (hstep : ∀ s l, (emit s l).foldl apply (view s) = view (next s l)) (s : σ) (ls : List ℓ) :
    (trace next emit s ls).foldl apply (view s) = view (run next s ls) := by
  induction ls generalizing s with
  | nil => rfl
  | cons l ls ih => rw [trace, List.foldl_append, hstep, ih, run_cons]

/-- If a view of the state is whatever a step emits last, it is what the run has
emitted last. -/
theorem getLastD_trace {emit : σ → ℓ → List ν} {view : σ → ν}
    (hstep : ∀ s l, (emit s l).getLastD (view s) = view (next s l)) (s : σ) (ls : List ℓ) :
    (trace next emit s ls).getLastD (view s) = view (run next s ls) := by
  have hlast : ∀ (xs : List ν) (d : ν), xs.getLastD d = xs.foldl (fun _ v => v) d := by
    intro xs
    induction xs with
    | nil =>
        intro d
        rfl
    | cons x xs ih =>
        intro d
        rw [List.getLastD_cons, ih x]
        rfl
  rw [hlast]
  refine foldl_trace ?_ s ls
  intro s l
  rw [← hlast]
  exact hstep s l

end Trace

end Transition
