import NearKms.App.Events
import NearKms.App.Upgrades
import NearKms.Lib.Simulation

/-!
# What a pause of an app stops

The app contract can be paused like the KMS contract, but none of its methods asks
whether it is. So a pause stops nothing.
-/

namespace NearKms.App

variable {up : Upgradable}

/-- The state with other pauses. -/
def State.withPaused (keys : List String) (s : State up) : State up :=
  { s with plugins := { s.plugins with pausedKeys := keys } }

def Outcome.withPaused (keys : List String) (out : Outcome up) : Outcome up :=
  { out with state := out.state.withPaused keys }

/-- A plugin call that pauses or resumes, and leaves the roles as they are. -/
def Toggles (s : State up) (l : Label up) : Prop :=
  ∃ plugins, l.2 = .plugin plugins ∧ plugins.acl = s.plugins.acl

/-- The same account, under whatever pauses. -/
def SameButPaused (s s' : State up) : Prop := s' = s.withPaused s'.plugins.pausedKeys

/-! ## One call -/

theorem ownerMethod_withPaused (keys : List String) (ctx : Context) (s : State up)
    (body : Contract → Except Panic (Contract × List Event)) :
    ownerMethod ctx (s.withPaused keys) body =
      (ownerMethod ctx s body).map (Outcome.withPaused keys) := by
  simp only [ownerMethod, map_bind_eq]
  rfl

theorem upgradeMethod_withPaused (keys : List String) (ctx : Context) (s : State up)
    (body : Except Panic (State up)) :
    upgradeMethod ctx (s.withPaused keys) (body.map (State.withPaused keys)) =
      (upgradeMethod ctx s body).map (Outcome.withPaused keys) := by
  simp only [upgradeMethod, map_bind_eq]
  cases body <;> rfl

/-- No method looks at the pauses. -/
theorem exec_withPaused {keys : List String} {s : State up} {call : Call up} (ctx : Context)
    (hcall : ∀ plugins, call ≠ .plugin plugins) :
    exec ctx (s.withPaused keys) call = (exec ctx s call).map (Outcome.withPaused keys) := by
  cases call with
  | plugin plugins => exact absurd rfl (hcall plugins)
  | new args =>
      simp only [exec, new, map_bind_eq]
      rfl
  | upStageCode code =>
      rw [exec, exec, upStageCode, upStageCode, ← upgradeMethod_withPaused, map_bind_eq]
      rfl
  | upDeployCode hash =>
      rw [exec, exec, upDeployCode, upDeployCode, ← upgradeMethod_withPaused, map_bind_eq]
      rfl
  | upDuration upgrades =>
      rw [exec, exec, upDurationMethod, upDurationMethod, ← upgradeMethod_withPaused]
      rfl
  | deployReceipt i fault =>
      have hdeployments : (s.withPaused keys).deployments = s.deployments := rfl
      simp only [exec, deployReceipt, map_bind_eq, hdeployments]
      cases s.deployments[i]? <;> rfl
  | _ => exact ownerMethod_withPaused ..

theorem SameButPaused.handles_iff {appCode : Bytes} {s s' : State up} (h : SameButPaused s s')
    (call : Call up) : Handles appCode s' call ↔ Handles appCode s call := by
  rw [h]
  rfl

/-- Whatever the pauses are, a call does the same up to the pauses. -/
theorem exec_sameButPaused {s s' : State up} (ctx : Context) (call : Call up)
    (h : SameButPaused s s') :
    ∃ keys, exec ctx s' call = (exec ctx s call).map (Outcome.withPaused keys) := by
  by_cases hplugin : ∃ plugins, call = .plugin plugins
  · rcases hplugin with ⟨plugins, rfl⟩
    refine ⟨plugins.pausedKeys, ?_⟩
    rcases s with ⟨code, contract, plugins', upgrades, deployments⟩
    rw [h]
    cases contract <;> rfl
  · refine ⟨s'.plugins.pausedKeys, ?_⟩
    rw [← exec_withPaused ctx fun plugins hp => hplugin ⟨plugins, hp⟩]
    exact congrArg (exec ctx · call) h

theorem sameButPaused_next {appCode : Bytes} {s s' : State up} (l : Label up)
    (h : SameButPaused s s') : SameButPaused (next appCode s l) (next appCode s' l) := by
  rcases exec_sameButPaused l.1 l.2 h with ⟨keys, hexec⟩
  simp only [next, h.handles_iff, hexec]
  split
  · cases exec l.1 s l.2 with
    | error e => exact h
    | ok out => rfl
  · exact h

theorem emitted_congr {appCode : Bytes} {s s' : State up} (l : Label up)
    (h : SameButPaused s s') : emitted appCode s l = emitted appCode s' l := by
  rcases exec_sameButPaused l.1 l.2 h with ⟨keys, hexec⟩
  simp only [emitted, h.handles_iff, hexec]
  cases exec l.1 s l.2 <;> rfl

theorem succeeds_congr {appCode : Bytes} {s s' : State up} (l : Label up)
    (h : SameButPaused s s') : Succeeds appCode s l ↔ Succeeds appCode s' l := by
  rcases exec_sameButPaused l.1 l.2 h with ⟨keys, hexec⟩
  rw [Succeeds, Succeeds, h.handles_iff, hexec]
  cases exec l.1 s l.2 <;> simp [Except.map]

/-- Pausing itself writes only the pauses, and emits nothing. -/
theorem sameButPaused_of_toggles {appCode : Bytes} {s s' : State up} {l : Label up}
    (hl : Toggles s l) (h : SameButPaused s s') : SameButPaused (next appCode s l) s' := by
  rcases l with ⟨ctx, call⟩
  rcases hl with ⟨plugins, rfl, hacl⟩
  rcases s with ⟨code, contract, ⟨acl, keys⟩, upgrades, deployments⟩
  rcases s' with ⟨code', contract', ⟨acl', keys'⟩, upgrades', deployments'⟩
  cases h
  obtain rfl : plugins.acl = acl := hacl
  unfold next
  split
  · cases contract <;> rfl
  · rfl

theorem emitted_of_toggles {appCode : Bytes} {s : State up} {l : Label up} (hl : Toggles s l) :
    emitted appCode s l = [] := by
  rcases l with ⟨ctx, call⟩
  rcases hl with ⟨plugins, rfl, -⟩
  rcases s with ⟨code, _ | c, plugins', upgrades, deployments⟩ <;> exact ite_self _

/-! ## Runs with pauses -/

/-- Leave out of a run any of the calls that pause or resume: the code, the contract,
the roles, what the upgrade plugin stores, the deployments in flight and the events are
the same, and so is, for every call and every receipt, whether it succeeds. -/
theorem pauses_stop_nothing {appCode : Bytes} {s : State up} {ls ms : List (Label up)}
    (h : Transition.Thins (next appCode) Toggles s ls ms) :
    let t := Transition.run (next appCode) s ls
    let t' := Transition.run (next appCode) s ms
    t' = t.withPaused t'.plugins.pausedKeys ∧
      Transition.trace (next appCode) (emitted appCode) s ls =
        Transition.trace (next appCode) (emitted appCode) s ms ∧
      ∀ l, Succeeds appCode t l ↔ Succeeds appCode t' l := by
  intro t t'
  have hstep : ∀ (s s' : State up) l, SameButPaused s s' →
      SameButPaused (next appCode s l) (next appCode s' l) := fun _ _ l => sameButPaused_next l
  have hsilent : ∀ (s s' : State up) l, Toggles s l → SameButPaused s s' →
      SameButPaused (next appCode s l) s' := fun _ _ _ => sameButPaused_of_toggles
  have hend : SameButPaused t t' := Transition.run_thins hstep hsilent h rfl
  refine ⟨hend, ?_, fun l => succeeds_congr l hend⟩
  exact Transition.trace_thins hstep hsilent (fun _ _ l => emitted_congr l)
    (fun _ _ => emitted_of_toggles) h rfl

/-- The owner pauses everything on a fresh app. -/
def pauseAll : Label samplePlugin :=
  (ownerCall, .plugin ⟨⟨[appOwner], [(Role.owner, appOwner)]⟩, ["ALL"]⟩)

/-- An upgrade goes through while everything is paused, and leaves the account as it does
without the pause. -/
theorem upgrade_while_paused :
    let t := Transition.run (next [1]) (deployed [1])
      (disabledInit :: pauseAll :: upgradeCalls verifyingModule)
    let t' := Transition.run (next [1]) (deployed [1])
      (disabledInit :: upgradeCalls verifyingModule)
    t.plugins.pausedKeys = ["ALL"] ∧ t.code = verifyingModule ∧ t' = t.withPaused [] := by
  intro t t'
  have hthins : Transition.Thins (next [1]) Toggles (deployed [1])
      (disabledInit :: pauseAll :: upgradeCalls verifyingModule)
      (disabledInit :: upgradeCalls verifyingModule) :=
    .keep (.drop ⟨_, rfl, rfl⟩ (.keep (.keep (.keep (.nil _)))))
  have hsame : t' = t.withPaused t'.plugins.pausedKeys := (pauses_stop_nothing hthins).1
  have hkeys : t'.plugins.pausedKeys = [] := by decide
  rw [hkeys] at hsame
  have hpaused : t.plugins.pausedKeys = ["ALL"] := by decide
  have hcode : t.code = verifyingModule := by decide
  exact ⟨hpaused, hcode, hsame⟩

end NearKms.App
