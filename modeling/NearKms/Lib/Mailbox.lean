import Mathlib.Data.List.Perm.Basic
import NearKms.Lib.Transition

/-!
# Messages in flight

A machine whose steps send messages into a bag and take messages out of it, in any
order. Whatever the run does, what was in the bag and what was sent is what was
received and what is still in the bag, each message as often.
-/

namespace Transition

universe u v w

variable {σ : Type u} {ℓ : Type v} {μ : Type w} {next : σ → ℓ → σ}

theorem trace_concat (emit : σ → ℓ → List μ) (s : σ) (ls : List ℓ) (l : ℓ) :
    trace next emit s (ls ++ [l]) = trace next emit s ls ++ emit (run next s ls) l := by
  induction ls generalizing s with
  | nil => simp [trace]
  | cons k ls ih => rw [List.cons_append, trace, trace, ih, List.append_assoc, run_cons]

theorem trace_map {ν : Type*} (f : μ → ν) (emit : σ → ℓ → List μ) (s : σ) (ls : List ℓ) :
    trace next (fun s l => (emit s l).map f) s ls = (trace next emit s ls).map f := by
  induction ls generalizing s with
  | nil => rfl
  | cons l ls ih => rw [trace, trace, List.map_append, ih]

/-- A message is in the trace exactly if some step emitted it. -/
theorem mem_trace_iff {emit : σ → ℓ → List μ} {m : μ} {s : σ} {ls : List ℓ} :
    m ∈ trace next emit s ls ↔ Occurs next (fun s l => m ∈ emit s l) s ls := by
  induction ls using List.reverseRecOn with
  | nil => simp [trace, not_occurs_nil]
  | append_singleton ls l ih => rw [trace_concat, List.mem_append, ih, occurs_concat_iff]

/-- One message taken out of a bag; a place without one takes nothing. -/
theorem perm_take_eraseIdx (bag : List μ) (i : Nat) :
    (bag[i]?.toList ++ bag.eraseIdx i).Perm bag := by
  cases hget : bag[i]? with
  | none => rw [List.eraseIdx_of_length_le (List.getElem?_eq_none_iff.1 hget), Option.toList_none,
      List.nil_append]
  | some m =>
      rcases List.getElem?_eq_some_iff.1 hget with ⟨hi, rfl⟩
      exact List.getElem_cons_eraseIdx_perm hi

/-- The bag of messages in flight, kept by every step up to what it sends and takes. -/
structure Mailbox (next : σ → ℓ → σ) (μ : Type w) where
  inFlight : σ → List μ
  sent : σ → ℓ → List μ
  received : σ → ℓ → List μ
  balanced : ∀ s l, (inFlight s ++ sent s l).Perm (received s l ++ inFlight (next s l))

namespace Mailbox

variable (box : Mailbox next μ)

/-- No message is lost or received twice. -/
theorem run_balanced (s : σ) (ls : List ℓ) :
    (box.inFlight s ++ trace next box.sent s ls).Perm
      (trace next box.received s ls ++ box.inFlight (run next s ls)) := by
  induction ls generalizing s with
  | nil => simp [trace]
  | cons l ls ih =>
      rw [trace, trace, run_cons, ← List.append_assoc, List.append_assoc (box.received s l)]
      exact ((box.balanced s l).append_right _).trans
        (by
          rw [List.append_assoc]
          exact (ih (next s l)).append_left _)

/-- A message was there or was sent in the run exactly if it was received in the run or is
still there. -/
theorem run_mem_iff (m : μ) (s : σ) (ls : List ℓ) :
    m ∈ box.inFlight s ∨ Occurs next (fun s l => m ∈ box.sent s l) s ls ↔
      Occurs next (fun s l => m ∈ box.received s l) s ls ∨ m ∈ box.inFlight (run next s ls) := by
  have hperm := (box.run_balanced s ls).mem_iff (a := m)
  rwa [List.mem_append, List.mem_append, mem_trace_iff, mem_trace_iff] at hperm

end Mailbox

end Transition
