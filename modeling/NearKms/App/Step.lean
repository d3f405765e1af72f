import NearKms.App.Contract
import NearKms.Lib.Transition

/-!
# Runs of the app contract

A run is a sequence of calls on the account and of receipts of its own deployments, in
any order. The receipts run whatever code the account has; the calls are this contract's
as long as it has the app's own code. Other code that comes to the account is not the app
any more, and what its methods do is not part of the run. `exec_contract` and
`exec_frame` say once what a successful step does.
-/

namespace NearKms.App

/-! ## Calls -/

/-- The entry points of the contract with their arguments. `plugin` stands for the
access-control and pause plugins, which write nothing but their own storage, and
`upDuration` for the upgrade plugin's entry points on the staging duration.
`deployReceipt` is no entry point: it is the receipt of a deployment in flight. -/
inductive Call (up : Upgradable) where
  | new (args : NewArgs)
  | addComposeHash (composeHash : String)
  | removeComposeHash (composeHash : String)
  | setAllowAnyDevice (allowAnyDevice : Bool)
  | addDevice (deviceId : String)
  | removeDevice (deviceId : String)
  | disableUpgrades
  | upStageCode (code : Bytes)
  | upDeployCode (hash : String)
  | upDuration (upgrades : up.Storage)
  | plugin (plugins : Plugins Role)
  | deployReceipt (i : Nat) (fault : Bool)

variable {up : Upgradable}

/-- A plugin call that ends with the given storage. -/
def pluginMethod (s : State up) (plugins : Plugins Role) : Except Panic (Outcome up) := do
  let _ ← readContract s.contract
  pure { state := { s with plugins }, events := [] }

def exec (ctx : Context) (s : State up) : Call up → Except Panic (Outcome up)
  | .new args => App.new ctx s args
  | .addComposeHash composeHash => App.addComposeHash ctx s composeHash
  | .removeComposeHash composeHash => App.removeComposeHash ctx s composeHash
  | .setAllowAnyDevice allowAnyDevice => App.setAllowAnyDevice ctx s allowAnyDevice
  | .addDevice deviceId => App.addDevice ctx s deviceId
  | .removeDevice deviceId => App.removeDevice ctx s deviceId
  | .disableUpgrades => App.disableUpgrades ctx s
  | .upStageCode code => App.upStageCode ctx s code
  | .upDeployCode hash => App.upDeployCode ctx s hash
  | .upDuration upgrades => App.upDurationMethod ctx s upgrades
  | .plugin plugins => App.pluginMethod s plugins
  | .deployReceipt i fault => App.deployReceipt ctx s i fault

/-- A call in its context. -/
abbrev Label (up : Upgradable) := Context × Call up

def Call.isReceipt : Call up → Bool
  | .deployReceipt _ _ => true
  | _ => false

theorem Call.isReceipt_iff {call : Call up} :
    call.isReceipt = true ↔ ∃ i fault, call = .deployReceipt i fault := by
  cases call <;> simp [Call.isReceipt]

/-- The account runs the step: it has the code of this contract, or the step is a
receipt, which needs none. -/
def Handles (appCode : Bytes) (s : State up) (call : Call up) : Prop :=
  s.code = appCode ∨ call.isReceipt = true

instance (appCode : Bytes) (s : State up) (call : Call up) : Decidable (Handles appCode s call) :=
  inferInstanceAs (Decidable (_ ∨ _))

/-- One step of the account; `appCode` is the code of this contract. -/
def next (appCode : Bytes) (s : State up) (l : Label up) : State up :=
  if Handles appCode s l.2 then
    match exec l.1 s l.2 with
    | .ok out => out.state
    | .error _ => s
  else s

/-! ## What a method needs and does -/

theorem ownerMethod_eq_ok {ctx : Context} {s : State up}
    {body : Contract → Except Panic (Contract × List Event)} {out : Outcome up} :
    ownerMethod ctx s body = .ok out ↔
      ctx.attachedDeposit = 0 ∧
        s.plugins.acl.hasAnyRole [Role.owner] ctx.predecessorAccountId = true ∧
        ∃ c c' events, s.contract = some c ∧ body c = .ok (c', events) ∧
          out = { state := { s with contract := some c' }, events } := by
  unfold ownerMethod
  simp only [bind_eq_ok, assertNoDeposit_eq_ok, readContract_eq_ok, accessControlAny_eq_ok,
    pure_eq_ok]
  constructor
  · intro h
    rcases h with ⟨-, hdeposit, c, hc, -, hrole, ⟨c', events⟩, hbody, rfl⟩
    exact ⟨hdeposit, hrole, c, c', events, hc, hbody, rfl⟩
  · intro h
    rcases h with ⟨hdeposit, hrole, c, c', events, hc, hbody, rfl⟩
    exact ⟨(), hdeposit, c, hc, (), hrole, (c', events), hbody, rfl⟩

/-- What an upgrade entry point asks of its caller and of the account. -/
def MayUpgrade (ctx : Context) (s : State up) : Prop :=
  ctx.attachedDeposit = 0 ∧ (∃ c, s.contract = some c) ∧
    s.plugins.acl.hasAnyRole [Role.owner] ctx.predecessorAccountId = true

theorem upgradeMethod_eq_ok {ctx : Context} {s : State up} {body : Except Panic (State up)}
    {out : Outcome up} :
    upgradeMethod ctx s body = .ok out ↔
      MayUpgrade ctx s ∧ ∃ s', body = .ok s' ∧ out = { state := s', events := [] } := by
  unfold upgradeMethod
  simp only [bind_eq_ok, assertNoDeposit_eq_ok, readContract_eq_ok, accessControlAny_eq_ok,
    pure_eq_ok]
  constructor
  · intro h
    rcases h with ⟨-, hdeposit, c, hc, -, hrole, s', hbody, rfl⟩
    exact ⟨⟨hdeposit, ⟨c, hc⟩, hrole⟩, s', hbody, rfl⟩
  · intro h
    rcases h with ⟨⟨hdeposit, ⟨c, hc⟩, hrole⟩, s', hbody, rfl⟩
    exact ⟨(), hdeposit, c, hc, (), hrole, s', hbody, rfl⟩

theorem upStageCode_eq_ok {ctx : Context} {s : State up} {code : Bytes} {out : Outcome up} :
    upStageCode ctx s code = .ok out ↔
      MayUpgrade ctx s ∧ ∃ upgrades, up.stageCode s.upgrades ctx code = .ok upgrades ∧
        out = { state := { s with upgrades }, events := [] } := by
  rw [upStageCode, upgradeMethod_eq_ok]
  refine and_congr_right fun _ => ?_
  simp only [bind_eq_ok, pure_eq_ok]
  constructor
  · rintro ⟨s', ⟨upgrades, hstage, rfl⟩, rfl⟩
    exact ⟨upgrades, hstage, rfl⟩
  · rintro ⟨upgrades, hstage, rfl⟩
    exact ⟨_, ⟨upgrades, hstage, rfl⟩, rfl⟩

theorem upDeployCode_eq_ok {ctx : Context} {s : State up} {hash : String} {out : Outcome up} :
    upDeployCode ctx s hash = .ok out ↔
      MayUpgrade ctx s ∧ ∃ code, up.mayDeploy s.upgrades ctx hash = true ∧
        up.stagedCode s.upgrades = some code ∧
        out = { state := { s with deployments := s.deployments ++ [code] }, events := [] } := by
  rw [upDeployCode, upgradeMethod_eq_ok]
  refine and_congr_right fun _ => ?_
  simp only [bind_eq_ok, Upgradable.codeToDeploy_eq_ok, pure_eq_ok]
  constructor
  · rintro ⟨s', ⟨code, ⟨hmay, hstaged⟩, rfl⟩, rfl⟩
    exact ⟨code, hmay, hstaged, rfl⟩
  · rintro ⟨code, hmay, hstaged, rfl⟩
    exact ⟨_, ⟨code, ⟨hmay, hstaged⟩, rfl⟩, rfl⟩

theorem upDurationMethod_eq_ok {ctx : Context} {s : State up} {upgrades : up.Storage}
    {out : Outcome up} :
    upDurationMethod ctx s upgrades = .ok out ↔
      MayUpgrade ctx s ∧ out = { state := { s with upgrades }, events := [] } := by
  rw [upDurationMethod, upgradeMethod_eq_ok]
  simp only [pure_eq_ok, exists_eq_left']

theorem pluginMethod_eq_ok {s : State up} {plugins : Plugins Role} {out : Outcome up} :
    pluginMethod s plugins = .ok out ↔
      ∃ c, s.contract = some c ∧ out = { state := { s with plugins }, events := [] } := by
  unfold pluginMethod
  simp only [bind_eq_ok, readContract_eq_ok, pure_eq_ok]
  constructor
  · intro h
    rcases h with ⟨c, hc, rfl⟩
    exact ⟨c, hc, rfl⟩
  · intro h
    rcases h with ⟨c, hc, rfl⟩
    exact ⟨c, hc, rfl⟩

/-- A receipt runs if it is in flight, and comes from the account itself. -/
theorem deployReceipt_eq_ok {ctx : Context} {s : State up} {i : Nat} {fault : Bool}
    {out : Outcome up} :
    deployReceipt ctx s i fault = .ok out ↔
      ctx.predecessorAccountId = ctx.currentAccountId ∧
        ∃ staged, s.deployments[i]? = some staged ∧
          out = { state := { s with code := up.codeAfter s.code staged fault
                                    deployments := s.deployments.eraseIdx i }
                  events := [] } := by
  unfold deployReceipt
  simp only [bind_eq_ok, assertPrivate_eq_ok, exists_and_left, exists_const]
  refine and_congr_right fun _ => ?_
  cases s.deployments[i]? with
  | none => simp
  | some staged =>
      constructor
      · intro h
        exact ⟨staged, rfl, (pure_eq_ok.1 h).symm⟩
      · rintro ⟨staged', hstaged, rfl⟩
        rw [Option.some.inj hstaged]
        rfl

/-! ## Initialization -/

/-- The set that an optional initial entry starts. -/
def initialSet : Option String → IterableSet String
  | some s => IterableSet.new.insert s
  | none => .new

/-- The contract that `new` stores. -/
def NewArgs.contract (args : NewArgs) : Contract where
  allowedComposeHashes := initialSet args.initialComposeHash
  allowAnyDevice := args.allowAnyDevice
  allowedDeviceIds := initialSet args.initialDeviceId
  upgradesDisabled := args.disableUpgrades
  kmsContractId := args.kmsContractId

def NewArgs.emitted (args : NewArgs) : List Event :=
  (args.initialDeviceId.toList.map .deviceAdded) ++
    args.initialComposeHash.toList.map .composeHashAdded

/-- The access-control list after `new`. -/
def aclOf (acl : Acl Role) (ownerId : AccountId) : Acl Role where
  superAdmins := acl.superAdmins ++ [ownerId]
  grantees := acl.grantees ++ [(Role.owner, ownerId)]

/-- An initial entry that is present goes the way of an added one: it must not be empty. -/
theorem addInitial_eq_ok {add : Contract → String → Except Panic (Contract × List Event)}
    {insert : Contract → String → Contract} {event : String → Event} {text : String}
    (hadd : ∀ c s, add c s = do
      require (s ≠ "") text
      pure (insert c s, [event s]))
    {c : Contract} {initial : Option String} {r : Contract × List Event} :
    addInitial add c initial = .ok r ↔
      initial ≠ some "" ∧
        r = (initial.toList.foldl insert c, initial.toList.map event) := by
  cases initial with
  | none =>
      rw [addInitial, pure_eq_ok]
      simp [eq_comm]
  | some s =>
      simp only [addInitial, hadd, bind_eq_ok, require_eq_ok, pure_eq_ok]
      constructor
      · rintro ⟨-, hne, rfl⟩
        exact ⟨fun h => hne (Option.some.inj h), rfl⟩
      · rintro ⟨hne, rfl⟩
        exact ⟨(), fun h => hne (congrArg some h), rfl⟩

/-- When `new` succeeds, and with what. -/
theorem new_eq_ok {ctx : Context} {s : State up} {args : NewArgs} {out : Outcome up} :
    new ctx s args = .ok out ↔
      ctx.attachedDeposit = 0 ∧ s.contract = none ∧ args.ownerId.asStr ≠ "" ∧
        args.initialDeviceId ≠ some "" ∧ args.initialComposeHash ≠ some "" ∧
        out = { state := { s with
                  contract := some args.contract
                  plugins := { s.plugins with acl := aclOf s.plugins.acl args.ownerId } }
                events := args.emitted } := by
  unfold new
  simp only [bind_eq_ok, assertNoDeposit_eq_ok, assertUninitialized_eq_ok, require_eq_ok,
    pure_eq_ok, addInitial_eq_ok (fun c s => (rfl : internalAddDevice c s = _)),
    addInitial_eq_ok (fun c s => (rfl : internalAddComposeHash c s = _))]
  rcases args with ⟨ownerId, disable, any, device, compose, kmsId⟩
  constructor
  · intro h
    rcases h with ⟨-, hdeposit, -, hnone, -, howner, -, ⟨hdevice, rfl⟩, -, ⟨hcompose, rfl⟩, rfl⟩
    refine ⟨hdeposit, hnone, howner, hdevice, hcompose, ?_⟩
    cases device <;> cases compose <;> rfl
  · intro h
    rcases h with ⟨hdeposit, hnone, howner, hdevice, hcompose, rfl⟩
    refine ⟨(), hdeposit, (), hnone, (), howner, _, ⟨hdevice, rfl⟩, _, ⟨hcompose, rfl⟩, ?_⟩
    cases device <;> cases compose <;> rfl

/-! ## What a step does -/

/-- What a successful call makes of an initialized contract. -/
def Call.effect : Call up → Contract → Contract
  | .addComposeHash h, c => { c with allowedComposeHashes := c.allowedComposeHashes.insert h }
  | .removeComposeHash h, c => { c with allowedComposeHashes := c.allowedComposeHashes.remove h }
  | .setAllowAnyDevice allowAnyDevice, c => { c with allowAnyDevice }
  | .addDevice d, c => { c with allowedDeviceIds := c.allowedDeviceIds.insert d }
  | .removeDevice d, c => { c with allowedDeviceIds := c.allowedDeviceIds.remove d }
  | .disableUpgrades, c => { c with upgradesDisabled := true }
  | _, c => c

/-- A successful call on an initialized contract has its effect. -/
theorem exec_contract {ctx : Context} {s : State up} {call : Call up} {out : Outcome up}
    {c : Contract} (h : exec ctx s call = .ok out) (hc : s.contract = some c) :
    out.state.contract = some (call.effect c) := by
  cases call with
  | new args =>
      rcases new_eq_ok.1 h with ⟨-, hnone, -⟩
      rw [hc] at hnone
      cases hnone
  | upStageCode code =>
      rcases upStageCode_eq_ok.1 h with ⟨-, upgrades, -, rfl⟩
      exact hc
  | upDeployCode hash =>
      rcases upDeployCode_eq_ok.1 h with ⟨-, -, -, -, rfl⟩
      exact hc
  | upDuration upgrades =>
      rcases upDurationMethod_eq_ok.1 h with ⟨-, rfl⟩
      exact hc
  | plugin plugins =>
      rcases pluginMethod_eq_ok.1 h with ⟨-, -, rfl⟩
      exact hc
  | deployReceipt i fault =>
      rcases deployReceipt_eq_ok.1 h with ⟨-, -, -, rfl⟩
      exact hc
  | _ =>
      rcases ownerMethod_eq_ok.1 h with ⟨-, -, c', c'', events, hc', hbody, rfl⟩
      rw [Option.some.inj (hc.symm.trans hc')]
      simp only [internalAddComposeHash, internalRemoveComposeHash, internalAddDevice,
        internalRemoveDevice, bind_eq_ok, pure_eq_ok, require_eq_ok, Prod.mk.injEq] at hbody
      first
        | (rcases hbody with ⟨rfl, -⟩; rfl)
        | (rcases hbody with ⟨-, -, rfl, -⟩; rfl)

/-- Only a receipt changes the code, and only `up_deploy_code` and receipts change what
is on its way. -/
theorem exec_frame {ctx : Context} {s : State up} {call : Call up} {out : Outcome up}
    (h : exec ctx s call = .ok out) (hreceipt : call.isReceipt = false) :
    out.state.code = s.code ∧
      ((∀ hash, call ≠ .upDeployCode hash) → out.state.deployments = s.deployments) := by
  cases call with
  | new args =>
      rcases new_eq_ok.1 h with ⟨-, -, -, -, -, rfl⟩
      exact ⟨rfl, fun _ => rfl⟩
  | upStageCode code =>
      rcases upStageCode_eq_ok.1 h with ⟨-, upgrades, -, rfl⟩
      exact ⟨rfl, fun _ => rfl⟩
  | upDeployCode hash =>
      rcases upDeployCode_eq_ok.1 h with ⟨-, -, -, -, rfl⟩
      exact ⟨rfl, fun hcall => absurd rfl (hcall hash)⟩
  | upDuration upgrades =>
      rcases upDurationMethod_eq_ok.1 h with ⟨-, rfl⟩
      exact ⟨rfl, fun _ => rfl⟩
  | plugin plugins =>
      rcases pluginMethod_eq_ok.1 h with ⟨-, -, rfl⟩
      exact ⟨rfl, fun _ => rfl⟩
  | deployReceipt i fault => cases hreceipt
  | _ =>
      rcases ownerMethod_eq_ok.1 h with ⟨-, -, -, -, -, -, -, rfl⟩
      exact ⟨rfl, fun _ => rfl⟩

/-- Without a contract only `new` and the receipts succeed. -/
theorem exec_uninitialized {ctx : Context} {s : State up} {call : Call up} {out : Outcome up}
    (h : exec ctx s call = .ok out) (hc : s.contract = none) :
    (∃ args, call = .new args ∧ out.state.contract = some args.contract) ∨
      (call.isReceipt = true ∧ out.state.contract = none) := by
  have hno : ∀ {c : Contract}, s.contract ≠ some c := by
    intro c hsome
    rw [hc] at hsome
    cases hsome
  cases call with
  | new args =>
      rcases new_eq_ok.1 h with ⟨-, -, -, -, -, rfl⟩
      exact Or.inl ⟨args, rfl, rfl⟩
  | upStageCode code => exact absurd (upStageCode_eq_ok.1 h).1.2.1.choose_spec hno
  | upDeployCode hash => exact absurd (upDeployCode_eq_ok.1 h).1.2.1.choose_spec hno
  | upDuration upgrades => exact absurd (upDurationMethod_eq_ok.1 h).1.2.1.choose_spec hno
  | plugin plugins =>
      rcases pluginMethod_eq_ok.1 h with ⟨c, hc', -⟩
      exact absurd hc' hno
  | deployReceipt i fault =>
      rcases deployReceipt_eq_ok.1 h with ⟨-, -, -, rfl⟩
      exact Or.inr ⟨rfl, hc⟩
  | _ =>
      rcases ownerMethod_eq_ok.1 h with ⟨-, -, c, -, -, hc', -⟩
      exact absurd hc' hno

/-! ## One step -/

/-- The account runs the step, and it does not panic. -/
def Succeeds (appCode : Bytes) (s : State up) (l : Label up) : Prop :=
  Handles appCode s l.2 ∧ ∃ out, exec l.1 s l.2 = .ok out

theorem next_of_ok {appCode : Bytes} {s : State up} {l : Label up} {out : Outcome up}
    (hcode : Handles appCode s l.2) (h : exec l.1 s l.2 = .ok out) :
    next appCode s l = out.state := by
  rw [next, if_pos hcode, h]

/-- On other code, or if the call panics, there is no outcome. -/
theorem exec_of_not_succeeds {appCode : Bytes} {s : State up} {l : Label up}
    (h : ¬ Succeeds appCode s l) :
    ¬ Handles appCode s l.2 ∨ ∃ e, exec l.1 s l.2 = .error e := by
  by_cases hcode : Handles appCode s l.2
  · cases hexec : exec l.1 s l.2 with
    | error e => exact Or.inr ⟨e, rfl⟩
    | ok out => exact absurd ⟨hcode, out, hexec⟩ h
  · exact Or.inl hcode

theorem next_of_not_succeeds {appCode : Bytes} {s : State up} {l : Label up}
    (h : ¬ Succeeds appCode s l) : next appCode s l = s := by
  rcases exec_of_not_succeeds h with hcode | ⟨e, hexec⟩
  · rw [next, if_neg hcode]
  · rw [next, hexec, ite_self]

/-- All a step can do to the contract: the effect of a successful call, an
initialization, or nothing. -/
theorem next_cases (appCode : Bytes) (s : State up) (l : Label up) :
    (∃ c, s.contract = some c ∧ Succeeds appCode s l ∧ (∀ args, l.2 ≠ .new args) ∧
        (next appCode s l).contract = some (l.2.effect c)) ∨
      (∃ args, s.contract = none ∧ Succeeds appCode s l ∧ l.2 = .new args ∧
        (next appCode s l).contract = some args.contract) ∨
      ((¬ Succeeds appCode s l ∨ l.2.isReceipt = true) ∧
        (next appCode s l).contract = s.contract) := by
  by_cases hs : Succeeds appCode s l
  · rcases hs with ⟨hcode, out, hout⟩
    rw [next_of_ok hcode hout]
    cases hc : s.contract with
    | some c =>
        refine Or.inl ⟨c, rfl, ⟨hcode, out, hout⟩, ?_, exec_contract hout hc⟩
        intro args hcall
        rw [hcall] at hout
        rw [(new_eq_ok.1 hout).2.1] at hc
        cases hc
    | none =>
        rcases exec_uninitialized hout hc with ⟨args, hcall, hnew⟩ | ⟨hreceipt, hnone⟩
        · exact Or.inr (Or.inl ⟨args, rfl, ⟨hcode, out, hout⟩, hcall, hnew⟩)
        · exact Or.inr (Or.inr ⟨Or.inr hreceipt, hnone⟩)
  · rw [next_of_not_succeeds hs]
    exact Or.inr (Or.inr ⟨Or.inl hs, rfl⟩)

end NearKms.App
