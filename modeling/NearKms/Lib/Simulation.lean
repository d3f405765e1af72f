import Mathlib.Logic.Relation
import NearKms.Lib.Transition

/-!
# Comparing runs

Ways in which two runs end in states that cannot be told apart: one machine simulates
the other through a view of its state, or agrees with it where an invariant holds; one
run lacks steps of the other that do not show; or the runs differ in the order of
neighbouring steps that commute. Each is proved from what one step does.
-/

namespace Transition

universe u v w

variable {σ : Type u} {ℓ : Type v} {τ : Type w} {next : σ → ℓ → σ}

/-! ## Simulation -/

/-- A view that follows every step follows every run. -/
theorem run_simulates {next' : τ → ℓ → τ} {view : σ → τ}
    (hstep : ∀ s l, view (next s l) = next' (view s) l) (s : σ) (ls : List ℓ) :
    view (run next s ls) = run next' (view s) ls := by
  induction ls generalizing s with
  | nil => rfl
  | cons l ls ih => rw [run_cons, run_cons, ih, hstep]

variable (next)

/-- The second run is the first one without some of its silent steps. -/
inductive Thins (Silent : σ → ℓ → Prop) : σ → List ℓ → List ℓ → Prop where
  | nil (s : σ) : Thins Silent s [] []
  | keep {s : σ} {l : ℓ} {ls ms : List ℓ} :
      Thins Silent (next s l) ls ms → Thins Silent s (l :: ls) (l :: ms)
  | drop {s : σ} {l : ℓ} {ls ms : List ℓ} :
      Silent s l → Thins Silent (next s l) ls ms → Thins Silent s (l :: ls) ms

variable {next}

/-- A run without its silent steps ends in a state like that of the run with them. -/
theorem run_thins {R : σ → σ → Prop} {Silent : σ → ℓ → Prop}
    (hstep : ∀ s s' l, R s s' → R (next s l) (next s' l))
    (hsilent : ∀ s s' l, Silent s l → R s s' → R (next s l) s')
    {s s' : σ} {ls ms : List ℓ} (hthins : Thins next Silent s ls ms) (h : R s s') :
    R (run next s ls) (run next s' ms) := by
  induction hthins generalizing s' with
  | nil s => exact h
  | keep _ ih => exact ih (hstep _ _ _ h)
  | drop hl _ ih => exact ih (hsilent _ _ _ hl h)

/-- If silent steps emit nothing and like states emit alike, neither does the trace
show which of them were left out. -/
theorem trace_thins {ε : Type*} {R : σ → σ → Prop} {Silent : σ → ℓ → Prop}
    {emit : σ → ℓ → List ε} (hstep : ∀ s s' l, R s s' → R (next s l) (next s' l))
    (hsilent : ∀ s s' l, Silent s l → R s s' → R (next s l) s')
    (hemit : ∀ s s' l, R s s' → emit s l = emit s' l) (hnone : ∀ s l, Silent s l → emit s l = [])
    {s s' : σ} {ls ms : List ℓ} (hthins : Thins next Silent s ls ms) (h : R s s') :
    trace next emit s ls = trace next emit s' ms := by
  induction hthins generalizing s' with
  | nil s => rfl
  | keep _ ih => rw [trace, trace, hemit _ _ _ h, ih (hstep _ _ _ h)]
  | drop hl _ ih => rw [trace, hnone _ _ hl, List.nil_append, ih (hsilent _ _ _ hl h)]

/-! ## Reordering -/

/-- Two neighbouring independent steps change places. -/
inductive Swap (Independent : ℓ → ℓ → Prop) : List ℓ → List ℓ → Prop where
  | swap (pre : List ℓ) {l m : ℓ} (h : Independent l m) (post : List ℓ) :
      Swap Independent (pre ++ l :: m :: post) (pre ++ m :: l :: post)

/-- The same steps in another order, in which dependent steps have kept theirs. -/
abbrev Reordered (Independent : ℓ → ℓ → Prop) : List ℓ → List ℓ → Prop :=
  Relation.EqvGen (Swap Independent)

/-- Where independent steps commute, the order in which they are taken does not show
in the state that is reached. -/
theorem run_reordered {Independent : ℓ → ℓ → Prop}
    (hcomm : ∀ s l m, Independent l m → next (next s l) m = next (next s m) l)
    {ls ms : List ℓ} (h : Reordered Independent ls ms) (s : σ) :
    run next s ls = run next s ms := by
  induction h with
  | rel _ _ hswap =>
      rcases hswap with ⟨pre, hindependent, post⟩
      rw [run_append, run_append]
      simp only [run_cons, hcomm _ _ _ hindependent]
  | refl _ => rfl
  | symm _ _ _ ih => exact ih.symm
  | trans _ _ _ _ _ ih ih' => exact ih.trans ih'

end Transition
