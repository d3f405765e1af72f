import NearKms.App.Administration

/-!
# The events of the app contract

As for the KMS contract; here `new` emits events too, one for each initial entry.
-/

namespace NearKms.App

variable {up : Upgradable}

/-- What an indexer keeps of the contract. -/
structure Index where
  allowedComposeHashes : IterableSet String
  allowedDeviceIds : IterableSet String
deriving DecidableEq

namespace Index

def empty : Index := ⟨.new, .new⟩

def ofContract (c : Contract) : Index := ⟨c.allowedComposeHashes, c.allowedDeviceIds⟩

/-- Added entries are inserted, removed ones deleted, each in the list its event names. -/
def apply (i : Index) : Event → Index
  | .composeHashAdded h => { i with allowedComposeHashes := i.allowedComposeHashes.insert h }
  | .composeHashRemoved h => { i with allowedComposeHashes := i.allowedComposeHashes.remove h }
  | .deviceAdded d => { i with allowedDeviceIds := i.allowedDeviceIds.insert d }
  | .deviceRemoved d => { i with allowedDeviceIds := i.allowedDeviceIds.remove d }
  | .allowAnyDeviceSet _ => i
  | .upgradesDisabled => i

/-- What there is to index in a state; before the initialization, nothing. -/
def ofState (s : State up) : Index :=
  match s.contract with
  | some c => ofContract c
  | none => empty

end Index

/-! ## What a call emits -/

/-- The events of a successful call. -/
def Call.emitted : Call up → List Event
  | .new args => args.emitted
  | .addComposeHash h => [.composeHashAdded h]
  | .removeComposeHash h => [.composeHashRemoved h]
  | .setAllowAnyDevice allowAnyDevice => [.allowAnyDeviceSet allowAnyDevice]
  | .addDevice d => [.deviceAdded d]
  | .removeDevice d => [.deviceRemoved d]
  | .disableUpgrades => [.upgradesDisabled]
  | _ => []

theorem exec_events {ctx : Context} {s : State up} {call : Call up} {out : Outcome up}
    (h : exec ctx s call = .ok out) : out.events = call.emitted := by
  cases call with
  | new args =>
      rcases new_eq_ok.1 h with ⟨_, _, _, _, _, rfl⟩
      rfl
  | upStageCode code =>
      rcases upStageCode_eq_ok.1 h with ⟨_, _, _, rfl⟩
      rfl
  | upDeployCode hash =>
      rcases upDeployCode_eq_ok.1 h with ⟨_, _, _, _, rfl⟩
      rfl
  | upDuration upgrades =>
      rcases upDurationMethod_eq_ok.1 h with ⟨_, rfl⟩
      rfl
  | plugin plugins =>
      rcases pluginMethod_eq_ok.1 h with ⟨_, _, rfl⟩
      rfl
  | deployReceipt i fault =>
      rcases deployReceipt_eq_ok.1 h with ⟨_, _, _, rfl⟩
      rfl
  | _ =>
      rcases ownerMethod_eq_ok.1 h with ⟨_, _, c, c', events, _, hbody, rfl⟩
      simp only [internalAddComposeHash, internalRemoveComposeHash, internalAddDevice,
        internalRemoveDevice, bind_eq_ok, pure_eq_ok, require_eq_ok, Prod.mk.injEq] at hbody
      first
        | (rcases hbody with ⟨_, rfl⟩; rfl)
        | (rcases hbody with ⟨_, _, _, rfl⟩; rfl)

/-- The events of a call describe its effect. -/
theorem foldl_emitted {call : Call up} (hcall : ∀ args, call ≠ .new args) (c : Contract) :
    call.emitted.foldl Index.apply (Index.ofContract c) = Index.ofContract (call.effect c) := by
  cases call with
  | new args => exact absurd rfl (hcall args)
  | _ => rfl

/-- The events of `new` describe the contract it stores. -/
theorem foldl_emitted_new (args : NewArgs) :
    args.emitted.foldl Index.apply Index.empty = Index.ofContract args.contract := by
  rcases args with ⟨ownerId, disable, any, device, compose, kmsId⟩
  cases device <;> cases compose <;> rfl

/-! ## Replay -/

/-- What a step emits: nothing if the call panics. -/
def emitted (appCode : Bytes) (s : State up) (l : Label up) : List Event :=
  if Handles appCode s l.2 then
    match exec l.1 s l.2 with
    | .ok out => out.events
    | .error _ => []
  else []

theorem emitted_of_succeeds {appCode : Bytes} {s : State up} {l : Label up}
    (h : Succeeds appCode s l) : emitted appCode s l = l.2.emitted := by
  rcases h with ⟨hcode, out, hout⟩
  rw [emitted, if_pos hcode, hout]
  exact exec_events hout

theorem emitted_of_not_succeeds {appCode : Bytes} {s : State up} {l : Label up}
    (h : ¬ Succeeds appCode s l) : emitted appCode s l = [] := by
  rcases exec_of_not_succeeds h with hcode | ⟨e, hexec⟩
  · rw [emitted, if_neg hcode]
  · rw [emitted, hexec, ite_self]

/-- The receipt of a deployment emits nothing either. -/
theorem emitted_of_quiet {appCode : Bytes} {s : State up} {l : Label up}
    (h : ¬ Succeeds appCode s l ∨ l.2.isReceipt = true) : emitted appCode s l = [] := by
  by_cases hsucc : Succeeds appCode s l
  · rw [emitted_of_succeeds hsucc]
    rcases Call.isReceipt_iff.1 (h.resolve_left (not_not.2 hsucc)) with ⟨i, fault, hcall⟩
    rw [hcall]
    rfl
  · exact emitted_of_not_succeeds hsucc

/-- One step: its events take the index from the state before to the state after. -/
theorem foldl_emitted_next (appCode : Bytes) (s : State up) (l : Label up) :
    (emitted appCode s l).foldl Index.apply (Index.ofState s) =
      Index.ofState (next appCode s l) := by
  rcases next_cases appCode s l with ⟨c, hc, hsucc, hnew, heffect⟩ |
    ⟨args, hc, hsucc, hnew, hinit⟩ | ⟨hquiet, hsame⟩
  · rw [emitted_of_succeeds hsucc, Index.ofState, Index.ofState, hc, heffect]
    exact foldl_emitted hnew c
  · rw [emitted_of_succeeds hsucc, hnew, Index.ofState, Index.ofState, hc, hinit]
    exact foldl_emitted_new args
  · rw [emitted_of_quiet hquiet, Index.ofState, Index.ofState, hsame]
    rfl

/-- Folding the events of a run from nothing yields the index of its last state. -/
theorem replay_run (appCode : Bytes) (s : State up) (ls : List (Label up)) :
    (Transition.trace (next appCode) (emitted appCode) (uninitialized s) ls).foldl Index.apply
        Index.empty =
      Index.ofState (Transition.run (next appCode) (uninitialized s) ls) :=
  Transition.foldl_trace (foldl_emitted_next appCode) (uninitialized s) ls

end NearKms.App
