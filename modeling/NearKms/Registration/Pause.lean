import NearKms.Kms.Pause
import NearKms.Registration.Completion

/-!
# Registrations during a pause

A pause of `register_app` stops new registrations. It does not stop those in flight:
the batch is a receipt of its own, and the callback that answers it is not paused.
-/

namespace NearKms

open Kms (Role)

namespace World

variable {ch : Chain}

/-- `register_app` is paused. -/
def RegistrationsPaused (w : World ch) : Prop := Kms.Paused "register_app" w.kms

/-- A paused step is no registration. -/
theorem not_registers_of_paused {w : World ch} {l : WorldLabel} (h : RegistrationsPaused w)
    (id : Nat) (g : Registration) : ¬ Registers id g w l := by
  intro hg
  rcases hg.issued with ⟨sender, args, out, _, _, _, hok, _⟩
  have hsucc : Kms.Succeeds ch.deps w.kms (w.context sender, .registerApp args) := ⟨out, hok⟩
  exact Kms.not_paused_of_succeeds hsucc _ rfl h

theorem allSteps_not_registers {w : World ch} {ms : List WorldLabel}
    (h : Transition.AllSteps next (fun v _ => RegistrationsPaused v) w ms) (id : Nat)
    (g : Registration) : Transition.AllSteps next (fun v l => ¬ Registers id g v l) w ms := by
  rw [Transition.allSteps_iff] at h ⊢
  intro pre l post hms
  exact not_registers_of_paused (h pre l post hms) id g

/-- Every registration there is was made before the pause. -/
theorem registers_before_pause {w₀ : World ch} {ls ms : List WorldLabel}
    (h : Transition.AllSteps next (fun v _ => RegistrationsPaused v) (after w₀ ls) ms)
    {id : Nat} {g : Registration} (hg : Happened (Registers id g) w₀ (ls ++ ms)) :
    Happened (Registers id g) w₀ ls := by
  rcases Transition.occurs_append_iff.1 hg with hbefore | hduring
  · exact hbefore
  · exact absurd hduring (Transition.not_occurs_of_allSteps (allSteps_not_registers h id g))

/-- A registration whose batch has not failed, and which is not completed, is in flight. -/
theorem Tracked.in_flight_of_not_completed {w₀ w : World ch} {ls : List WorldLabel}
    (h : Tracked w₀ ls w) {id : Nat} {g : Registration} (hg : Happened (Registers id g) w₀ ls)
    (hfails : ¬ Happened (BatchFails id) w₀ ls) (hnot : ¬ Completed w₀ ls w id g) :
    w.batches id ≠ none ∨ w.callbacks id = some (g.account, true) := by
  rcases h.phased id g hg with ⟨phase, hphase, hdeployed, hfailed⟩
  cases phase with
  | pending =>
      rcases hphase.batch with ⟨deployment, hbatch, _⟩
      left
      rw [hbatch]
      exact Option.some_ne_none deployment
  | deployed =>
      have hsucceeds := hdeployed.1 rfl
      rcases hphase.callback with hnone | hsome
      · exact absurd ⟨hg, hsucceeds, hnone⟩ hnot
      · exact Or.inr hsome
  | refunding => exact absurd (hfailed.1 (Or.inl rfl)) hfails
  | refunded => exact absurd (hfailed.1 (Or.inr rfl)) hfails

/-- A batch does not both succeed and fail. -/
theorem Tracked.not_fails_of_succeeds {w₀ w : World ch} {ls : List WorldLabel}
    (h : Tracked w₀ ls w) {id : Nat} {g : Registration} (hg : Happened (Registers id g) w₀ ls)
    (hsucceeds : Happened (BatchSucceeds id g.account) w₀ ls) :
    ¬ Happened (BatchFails id) w₀ ls := by
  rcases h.phased id g hg with ⟨phase, _, hdeployed, hfailed⟩
  intro hfails
  rcases hfailed.2 hfails with rfl | rfl <;> cases hdeployed.2 hsucceeds

/-- While `register_app` is paused in a run, no registration is made. The apps that are
registered meanwhile are those whose batch or callback was in flight when the pause
began: these complete, paused or not. -/
theorem registrations_during_pause {kmsId : AccountId} {accounts : List AccountId}
    {ls ms : List WorldLabel}
    (h : Transition.AllSteps next (fun v _ => RegistrationsPaused v)
      (after (initial kmsId accounts : World ch) ls) ms) :
    let w₀ : World ch := initial kmsId accounts
    let w := after w₀ ls
    let w' := after w ms
    (∀ id g, Happened (Registers id g) w₀ (ls ++ ms) → Happened (Registers id g) w₀ ls) ∧
      ∀ a, a ∈ Kms.registeredApps w'.kms ↔ a ∈ Kms.registeredApps w.kms ∨
        ∃ id g, g.account = a ∧ Happened (Registers id g) w₀ ls ∧
          (w.batches id ≠ none ∨ w.callbacks id = some (a, true)) ∧
          Happened (BatchSucceeds id a) w₀ (ls ++ ms) ∧ w'.callbacks id = none := by
  intro w₀ w w'
  have hrun : after w₀ (ls ++ ms) = w' := Transition.run_append ..
  have htracked : Tracked w₀ ls w := tracked_after kmsId accounts ls
  have htracked' : Tracked w₀ (ls ++ ms) w' := hrun ▸ tracked_after kmsId accounts (ls ++ ms)
  have hcomplete : Complete w₀ ls w := complete_after kmsId accounts ls
  have hcomplete' : Complete w₀ (ls ++ ms) w' := hrun ▸ complete_after kmsId accounts (ls ++ ms)
  refine ⟨fun id g => registers_before_pause h, ?_⟩
  intro a
  constructor
  · intro ha
    rcases hcomplete'.sound a ha with ⟨id, g, rfl, hg, hsucceeds, hcallback⟩
    have hbefore : Happened (Registers id g) w₀ ls := registers_before_pause h hg
    by_cases hcompleted : Completed w₀ ls w id g
    · exact Or.inl (hcomplete.complete id g hcompleted)
    · -- a failure before the pause would have been a failure for good
      have hfails : ¬ Happened (BatchFails id) w₀ ls := fun hfails =>
        htracked'.not_fails_of_succeeds hg hsucceeds
          (Transition.occurs_append_iff.2 (Or.inl hfails))
      have hflight := htracked.in_flight_of_not_completed hbefore hfails hcompleted
      exact Or.inr ⟨id, g, rfl, hbefore, hflight, hsucceeds, hcallback⟩
  · rintro (ha | ⟨id, g, rfl, hbefore, -, hsucceeds, hcallback⟩)
    · exact registered_after ms ha
    · have hg : Happened (Registers id g) w₀ (ls ++ ms) :=
        Transition.occurs_append_iff.2 (Or.inl hbefore)
      exact hcomplete'.complete id g ⟨hg, hsucceeds, hcallback⟩

/-- The owner pauses everything while the first registration is in flight. -/
def pauseSample : WorldLabel :=
  .call (senderOf Kms.ownerAccount 0)
    (.plugin ⟨⟨[Kms.ownerAccount], [(Role.owner, Kms.ownerAccount)]⟩, ["ALL"]⟩)

def pausedRun : List WorldLabel := [initKms, registerSample, pauseSample]

theorem batchSucceeds_while_paused :
    BatchSucceeds 0 sampleAccount (after sampleWorld pausedRun) (.runBatch 0 false) := by
  have hdeploy : ((after sampleWorld pausedRun).batches 0).any (fun d =>
      d.account == sampleAccount &&
        ((after sampleWorld pausedRun).deploy d false).isSome) = true := by
    decide +kernel
  rcases (Option.any_eq_true ..).1 hdeploy with ⟨deployment, hbatch, hboth⟩
  rcases Bool.and_eq_true_iff.1 hboth with ⟨haccount, happ⟩
  rcases Option.isSome_iff_exists.1 happ with ⟨app, happ⟩
  exact ⟨deployment, false, app, rfl, hbatch, beq_iff_eq.1 haccount, happ⟩

/-- It completes none the less. -/
theorem registration_completes_while_paused :
    sampleAccount ∈ Kms.registeredApps
      (after (after sampleWorld pausedRun) [.runBatch 0 false, .runCallback 0]).kms := by
  have hkeys : (after sampleWorld pausedRun).kms.plugins.pausedKeys = ["ALL"] := by decide +kernel
  have hpaused : ∀ w : World sampleChain, w.kms = (after sampleWorld pausedRun).kms →
      RegistrationsPaused w := by
    intro w hw
    rw [RegistrationsPaused, Kms.Paused, hw, hkeys]
    exact Or.inr List.mem_cons_self
  have hall : Transition.AllSteps next (fun v _ => RegistrationsPaused v)
      (after sampleWorld pausedRun) [.runBatch 0 false, .runCallback 0] :=
    ⟨hpaused _ rfl, hpaused _ (kms_runBatch _ 0 false), trivial⟩
  have hregisters : Happened (Registers 0 sampleRegistration) sampleWorld pausedRun :=
    ⟨[initKms], registerSample, _, rfl, registers_first⟩
  have hbatch : ((after sampleWorld pausedRun).batches 0).isSome = true := by decide +kernel
  have hsucceeds : Happened (BatchSucceeds 0 sampleAccount) sampleWorld
      (pausedRun ++ [.runBatch 0 false, .runCallback 0]) :=
    ⟨pausedRun, .runBatch 0 false, _, rfl, batchSucceeds_while_paused⟩
  refine ((registrations_during_pause hall).2 sampleAccount).2 (Or.inr ⟨0, sampleRegistration, rfl,
    hregisters, Or.inl ?_, hsucceeds, ?_⟩)
  · exact Option.isSome_iff_ne_none.1 hbatch
  · exact (runCallback_slots ((after sampleWorld pausedRun).runBatch 0 false) 0).2

end World

end NearKms
