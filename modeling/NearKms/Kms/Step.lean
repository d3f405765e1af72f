import NearKms.Kms.Contract
import NearKms.Lib.Transition

/-!
# Runs of the KMS contract

A run is a sequence of calls, each with the context it is made in; a call that
panics leaves the state as it was. Each method has a lemma that says when it succeeds
and with what; `exec_contract` and `exec_plugins` say once what a successful call does to
the state, and `next_cases` what a step can do: every property of reachable states is
derived from these.
-/

namespace NearKms.Kms

/-! ## Calls -/

/-- The entry points of the contract with their arguments, as long as its code is
not upgraded. `plugin` stands for the entry points of the access-control and pause
plugins, which write nothing but the plugins' own storage. -/
inductive Call where
  | new (ownerId mpcContractId : AccountId) (mpcDomainId : UInt64)
  | requestKmsRootKey (quoteHex collateral tcbInfo workerPublicKey : String)
  | addKmsComposeHash (composeHash : String)
  | removeKmsComposeHash (composeHash : String)
  | setGatewayAppId (appId : String)
  | setKmsInfo (info : KmsInfo)
  | setKmsQuote (quote : Bytes)
  | setKmsEventlog (eventlog : Bytes)
  | addOsImageHash (osImageHash : String)
  | removeOsImageHash (osImageHash : String)
  | addKmsAggregatedMr (mrAggregated : String)
  | removeKmsAggregatedMr (mrAggregated : String)
  | addKmsDevice (deviceId : String)
  | removeKmsDevice (deviceId : String)
  | registerApp (args : RegisterAppArgs)
  | onAppContractDeployed (appId : AccountId)
  | plugin (plugins : Plugins Role)

/-- A plugin call that ends with the given storage. -/
def pluginMethod (s : State) (plugins : Plugins Role) : Except Panic Outcome := do
  let _ ← readContract s.contract
  pure { state := { s with plugins }, events := [], promise := none }

def exec (deps : Externals) (ctx : Context) (s : State) : Call → Except Panic Outcome
  | .new ownerId mpcContractId mpcDomainId => Kms.new ctx s ownerId mpcContractId mpcDomainId
  | .requestKmsRootKey quoteHex collateral tcbInfo workerPublicKey =>
      Kms.requestKmsRootKey deps ctx s quoteHex collateral tcbInfo workerPublicKey
  | .addKmsComposeHash composeHash => Kms.addKmsComposeHash ctx s composeHash
  | .removeKmsComposeHash composeHash => Kms.removeKmsComposeHash ctx s composeHash
  | .setGatewayAppId appId => Kms.setGatewayAppId ctx s appId
  | .setKmsInfo info => Kms.setKmsInfo ctx s info
  | .setKmsQuote quote => Kms.setKmsQuote ctx s quote
  | .setKmsEventlog eventlog => Kms.setKmsEventlog ctx s eventlog
  | .addOsImageHash osImageHash => Kms.addOsImageHash ctx s osImageHash
  | .removeOsImageHash osImageHash => Kms.removeOsImageHash ctx s osImageHash
  | .addKmsAggregatedMr mrAggregated => Kms.addKmsAggregatedMr ctx s mrAggregated
  | .removeKmsAggregatedMr mrAggregated => Kms.removeKmsAggregatedMr ctx s mrAggregated
  | .addKmsDevice deviceId => Kms.addKmsDevice ctx s deviceId
  | .removeKmsDevice deviceId => Kms.removeKmsDevice ctx s deviceId
  | .registerApp args => Kms.registerApp deps ctx s args
  | .onAppContractDeployed appId => Kms.onAppContractDeployed ctx s appId
  | .plugin plugins => Kms.pluginMethod s plugins

/-- A call in its context. -/
abbrev Label := Context × Call

def next (deps : Externals) (s : State) (l : Label) : State :=
  match exec deps l.1 s l.2 with
  | .ok out => out.state
  | .error _ => s

/-- The call does not panic. -/
def Succeeds (deps : Externals) (s : State) (l : Label) : Prop :=
  ∃ out, exec deps l.1 s l.2 = .ok out

abbrev Reachable (deps : Externals) : State → Prop :=
  Transition.Reachable (next deps) (· = State.deployed)

/-! ## What a method needs and does -/

theorem ownerMethod_eq_ok {ctx : Context} {s : State}
    {body : Contract → Except Panic (Contract × List Event)} {out : Outcome} :
    ownerMethod ctx s body = .ok out ↔
      ctx.attachedDeposit = 0 ∧
        s.plugins.acl.hasAnyRole [Role.owner] ctx.predecessorAccountId = true ∧
        ∃ c c' events, s.contract = some c ∧ body c = .ok (c', events) ∧
          out = { state := { s with contract := some c' }, events, promise := none } := by
  unfold ownerMethod
  simp only [bind_eq_ok, assertNoDeposit_eq_ok, readContract_eq_ok, accessControlAny_eq_ok,
    pure_eq_ok]
  constructor
  · intro h
    rcases h with ⟨-, hdeposit, c, hc, -, hrole, ⟨c', events⟩, hbody, rfl⟩
    exact ⟨hdeposit, hrole, c, c', events, hc, hbody, rfl⟩
  · intro h
    rcases h with ⟨hdeposit, hrole, c, c', events, hc, hbody, rfl⟩
    exact ⟨(), hdeposit, c, hc, (), hrole, (c', events), hbody, rfl⟩

/-- What a successful call makes of an initialized contract. -/
def Call.effect : Call → Contract → Contract
  | .new .., c => c
  | .requestKmsRootKey .., c => c
  | .addKmsComposeHash h, c =>
      { c with kmsAllowedComposeHashes := c.kmsAllowedComposeHashes.insert h }
  | .removeKmsComposeHash h, c =>
      { c with kmsAllowedComposeHashes := c.kmsAllowedComposeHashes.remove h }
  | .setGatewayAppId appId, c => { c with gatewayAppId := some appId }
  | .setKmsInfo info, c => { c with kmsInfo := some info }
  | .setKmsQuote quote, c => { c with kmsInfo := some (withQuote quote c.kmsInfo) }
  | .setKmsEventlog eventlog, c => { c with kmsInfo := some (withEventlog eventlog c.kmsInfo) }
  | .addOsImageHash h, c => { c with allowedOsImages := c.allowedOsImages.insert h }
  | .removeOsImageHash h, c => { c with allowedOsImages := c.allowedOsImages.remove h }
  | .addKmsAggregatedMr mr, c =>
      { c with kmsAllowedAggregatedMrs := c.kmsAllowedAggregatedMrs.insert mr }
  | .removeKmsAggregatedMr mr, c =>
      { c with kmsAllowedAggregatedMrs := c.kmsAllowedAggregatedMrs.remove mr }
  | .addKmsDevice d, c => { c with kmsAllowedDeviceIds := c.kmsAllowedDeviceIds.insert d }
  | .removeKmsDevice d, c => { c with kmsAllowedDeviceIds := c.kmsAllowedDeviceIds.remove d }
  | .registerApp _, c => c
  | .onAppContractDeployed appId, c => { c with registeredApps := c.registeredApps.insert appId }
  | .plugin _, c => c

/-- A successful request writes nothing; what it returns names the caller's key. -/
theorem requestKmsRootKey_eq_ok {deps : Externals} {ctx : Context} {s : State}
    {quoteHex collateral tcbInfo workerPublicKey : String} {out : Outcome}
    (h : requestKmsRootKey deps ctx s quoteHex collateral tcbInfo workerPublicKey = .ok out) :
    ∃ c, s.contract = some c ∧
      out = { state := s
              events := []
              promise := some (.requestAppPrivateKey c.mpcContractId
                { derivationPath := kmsRootKeyDerivationPath
                  appPublicKey := workerPublicKey
                  domainId := c.mpcDomainId } 1 gasMpcCkdRequest) } := by
  unfold requestKmsRootKey at h
  simp only [bind_eq_ok, readContract_eq_ok, pure_eq_ok] at h
  rcases h with ⟨c, hc, -, -, -, -, -, -, -, -, -, -, -, -, -, -, rfl⟩
  exact ⟨c, hc, rfl⟩

/-- What `register_app` asks for on the app's account. -/
def deploymentOn (ctx : Context) (args : RegisterAppArgs) (account : AccountId) : Deployment where
  account := account
  transfer := ctx.attachedDeposit
  method := "new"
  args := initArgs ctx args
  attachedDeposit := 0
  gas := gasDeployApp
  callbackArg := account
  callbackGas := gasDeployAppCallback

/-- A successful `register_app` writes nothing either; it was made by an owner, and
returns a deployment on a subaccount. -/
theorem registerApp_eq_ok {deps : Externals} {ctx : Context} {s : State}
    {args : RegisterAppArgs} {out : Outcome} (h : registerApp deps ctx s args = .ok out) :
    ∃ c account, s.contract = some c ∧
      s.plugins.acl.hasAnyRole [Role.owner] ctx.predecessorAccountId = true ∧
      args.ownerId.asStr ≠ "" ∧
      deps.parseAccountId (args.appId.asStr ++ "." ++ ctx.currentAccountId.asStr) =
        some account ∧
      out = { state := s
              events := []
              promise := some (.deployApp (deploymentOn ctx args account)) } := by
  unfold registerApp getAppAccountId at h
  simp only [bind_eq_ok, readContract_eq_ok, accessControlAny_eq_ok, require_eq_ok,
    unwrapOr_eq_ok, pure_eq_ok] at h
  rcases h with ⟨c, hc, -, -, -, hrole, -, -, -, howner, account, haccount, rfl⟩
  exact ⟨c, account, hc, hrole, howner, haccount, rfl⟩

theorem deployment_of_registerApp {deps : Externals} {ctx : Context} {s : State}
    {args : RegisterAppArgs} {out : Outcome} {deployment : Deployment}
    (h : registerApp deps ctx s args = .ok out)
    (hpromise : out.promise = some (.deployApp deployment)) :
    ∃ account, deployment = deploymentOn ctx args account := by
  rcases registerApp_eq_ok h with ⟨_, account, _, _, _, _, rfl⟩
  cases hpromise
  exact ⟨account, rfl⟩

theorem onAppContractDeployed_eq_ok {ctx : Context} {s : State} {appId : AccountId}
    {out : Outcome} :
    onAppContractDeployed ctx s appId = .ok out ↔
      ctx.predecessorAccountId = ctx.currentAccountId ∧ ctx.attachedDeposit = 0 ∧
        ctx.promiseResults.head? = some true ∧
        ∃ c, s.contract = some c ∧
          out = { state := { s with contract := some { c with
                    registeredApps := c.registeredApps.insert appId } }
                  events := [.appDeployed appId]
                  promise := none } := by
  unfold onAppContractDeployed
  simp only [bind_eq_ok, assertPrivate_eq_ok, assertNoDeposit_eq_ok, readContract_eq_ok]
  constructor
  · intro h
    rcases h with ⟨-, hprivate, -, hdeposit, result, hresult, c, hc, hout⟩
    cases hresults : ctx.promiseResults with
    | nil => simp [callbackResult, hresults] at hresult
    | cons r rs =>
        obtain rfl : r = result := by simpa [callbackResult, hresults] using hresult
        cases r with
        | false => simp at hout
        | true => exact ⟨hprivate, hdeposit, rfl, c, hc, (pure_eq_ok.1 hout).symm⟩
  · intro h
    rcases h with ⟨hprivate, hdeposit, hresult, c, hc, rfl⟩
    refine ⟨(), hprivate, (), hdeposit, true, ?_, c, hc, rfl⟩
    cases hresults : ctx.promiseResults with
    | nil => simp [hresults] at hresult
    | cons r rs => simpa [callbackResult, hresults] using hresult

theorem new_eq_ok {ctx : Context} {s : State} {ownerId mpcContractId : AccountId}
    {mpcDomainId : UInt64} {out : Outcome} :
    new ctx s ownerId mpcContractId mpcDomainId = .ok out ↔
      ctx.predecessorAccountId = ctx.currentAccountId ∧ ctx.attachedDeposit = 0 ∧
        s.contract = none ∧
        out = { state :=
                  { contract := some (Contract.new mpcContractId mpcDomainId)
                    plugins := { s.plugins with
                      acl := { superAdmins := s.plugins.acl.superAdmins ++ [ownerId]
                               grantees := s.plugins.acl.grantees ++ [(Role.owner, ownerId)] } } }
                events := []
                promise := none } := by
  unfold new
  simp only [bind_eq_ok, assertPrivate_eq_ok, assertNoDeposit_eq_ok, assertUninitialized_eq_ok,
    pure_eq_ok]
  constructor
  · intro h
    rcases h with ⟨-, hprivate, -, hdeposit, -, hnone, rfl⟩
    exact ⟨hprivate, hdeposit, hnone, rfl⟩
  · intro h
    rcases h with ⟨hprivate, hdeposit, hnone, rfl⟩
    exact ⟨(), hprivate, (), hdeposit, (), hnone, rfl⟩

theorem pluginMethod_eq_ok {s : State} {plugins : Plugins Role} {out : Outcome} :
    pluginMethod s plugins = .ok out ↔
      ∃ c, s.contract = some c ∧
        out = { state := { s with plugins }, events := [], promise := none } := by
  unfold pluginMethod
  simp only [bind_eq_ok, readContract_eq_ok, pure_eq_ok]
  constructor
  · intro h
    rcases h with ⟨c, hc, rfl⟩
    exact ⟨c, hc, rfl⟩
  · intro h
    rcases h with ⟨c, hc, rfl⟩
    exact ⟨c, hc, rfl⟩

/-! ## What a call does -/

/-- Every method but `new` reads the contract first. -/
theorem exec_initialized {deps : Externals} {ctx : Context} {s : State} {call : Call}
    {out : Outcome} (h : exec deps ctx s call = .ok out) :
    (∃ c, s.contract = some c) ∨
      s.contract = none ∧ ∃ ownerId mpcContractId mpcDomainId,
        call = .new ownerId mpcContractId mpcDomainId ∧
          out.state.contract = some (Contract.new mpcContractId mpcDomainId) := by
  cases call with
  | new ownerId mpcContractId mpcDomainId =>
      rcases new_eq_ok.1 h with ⟨-, -, hnone, rfl⟩
      exact Or.inr ⟨hnone, ownerId, mpcContractId, mpcDomainId, rfl, rfl⟩
  | requestKmsRootKey quoteHex collateral tcbInfo workerPublicKey =>
      rcases requestKmsRootKey_eq_ok h with ⟨c, hc, -⟩
      exact Or.inl ⟨c, hc⟩
  | registerApp args =>
      rcases registerApp_eq_ok h with ⟨c, -, hc, -⟩
      exact Or.inl ⟨c, hc⟩
  | onAppContractDeployed appId =>
      rcases onAppContractDeployed_eq_ok.1 h with ⟨-, -, -, c, hc, -⟩
      exact Or.inl ⟨c, hc⟩
  | plugin plugins =>
      rcases pluginMethod_eq_ok.1 h with ⟨c, hc, -⟩
      exact Or.inl ⟨c, hc⟩
  | _ =>
      rcases ownerMethod_eq_ok.1 h with ⟨-, -, c, -, -, hc, -⟩
      exact Or.inl ⟨c, hc⟩

/-- A successful call on an initialized contract has its effect. -/
theorem exec_contract {deps : Externals} {ctx : Context} {s : State} {call : Call} {out : Outcome}
    {c : Contract} (h : exec deps ctx s call = .ok out) (hc : s.contract = some c) :
    out.state.contract = some (call.effect c) := by
  cases call with
  | new ownerId mpcContractId mpcDomainId =>
      rcases new_eq_ok.1 h with ⟨-, -, hnone, -⟩
      rw [hc] at hnone
      cases hnone
  | requestKmsRootKey quoteHex collateral tcbInfo workerPublicKey =>
      rcases requestKmsRootKey_eq_ok h with ⟨-, -, rfl⟩
      exact hc
  | registerApp args =>
      rcases registerApp_eq_ok h with ⟨-, -, -, -, -, -, rfl⟩
      exact hc
  | onAppContractDeployed appId =>
      rcases onAppContractDeployed_eq_ok.1 h with ⟨-, -, -, c', hc', rfl⟩
      rw [Option.some.inj (hc.symm.trans hc')]
      rfl
  | plugin plugins =>
      rcases pluginMethod_eq_ok.1 h with ⟨-, -, rfl⟩
      exact hc
  | _ =>
      -- the setters: with or without a check of the argument
      rcases ownerMethod_eq_ok.1 h with ⟨-, -, c', c'', events, hc', hbody, rfl⟩
      rw [Option.some.inj (hc.symm.trans hc')]
      simp only [bind_eq_ok, pure_eq_ok, require_eq_ok, Prod.mk.injEq] at hbody
      first
        | (rcases hbody with ⟨rfl, -⟩; rfl)
        | (rcases hbody with ⟨-, -, rfl, -⟩; rfl)

/-- The plugins' storage is written by their own entry points and by `new`. -/
theorem exec_plugins {deps : Externals} {ctx : Context} {s : State} {call : Call} {out : Outcome}
    {c : Contract} (h : exec deps ctx s call = .ok out) (hc : s.contract = some c)
    (hcall : ∀ plugins, call ≠ .plugin plugins) : out.state.plugins = s.plugins := by
  cases call with
  | new ownerId mpcContractId mpcDomainId =>
      rcases new_eq_ok.1 h with ⟨-, -, hnone, -⟩
      rw [hc] at hnone
      cases hnone
  | requestKmsRootKey quoteHex collateral tcbInfo workerPublicKey =>
      rcases requestKmsRootKey_eq_ok h with ⟨-, -, rfl⟩
      rfl
  | registerApp args =>
      rcases registerApp_eq_ok h with ⟨-, -, -, -, -, -, rfl⟩
      rfl
  | onAppContractDeployed appId =>
      rcases onAppContractDeployed_eq_ok.1 h with ⟨-, -, -, c', hc', rfl⟩
      rfl
  | plugin plugins => exact absurd rfl (hcall plugins)
  | _ =>
      rcases ownerMethod_eq_ok.1 h with ⟨-, -, c', c'', events, hc', hbody, rfl⟩
      rfl

/-- Only `register_app` issues a deployment. -/
theorem exec_deployApp {deps : Externals} {ctx : Context} {s : State} {call : Call} {out : Outcome}
    {deployment : Deployment} (h : exec deps ctx s call = .ok out)
    (hpromise : out.promise = some (.deployApp deployment)) :
    ∃ args, call = .registerApp args := by
  cases call with
  | registerApp args => exact ⟨args, rfl⟩
  | new ownerId mpcContractId mpcDomainId =>
      rcases new_eq_ok.1 h with ⟨_, _, _, rfl⟩
      cases hpromise
  | requestKmsRootKey quoteHex collateral tcbInfo workerPublicKey =>
      rcases requestKmsRootKey_eq_ok h with ⟨_, _, rfl⟩
      cases hpromise
  | onAppContractDeployed appId =>
      rcases onAppContractDeployed_eq_ok.1 h with ⟨_, _, _, _, _, rfl⟩
      cases hpromise
  | plugin plugins =>
      rcases pluginMethod_eq_ok.1 h with ⟨_, _, rfl⟩
      cases hpromise
  | _ =>
      rcases ownerMethod_eq_ok.1 h with ⟨_, _, _, _, _, _, _, rfl⟩
      cases hpromise

/-- Only a callback registers an app. -/
theorem mem_effect_registeredApps {call : Call} {c : Contract} {a : AccountId} :
    a ∈ (call.effect c).registeredApps ↔
      a ∈ c.registeredApps ∨ call = .onAppContractDeployed a := by
  cases call with
  | onAppContractDeployed appId => simp [Call.effect, eq_comm]
  | _ => simp [Call.effect]

/-! ## One step -/

theorem next_of_ok {deps : Externals} {s : State} {l : Label} {out : Outcome}
    (h : exec deps l.1 s l.2 = .ok out) : next deps s l = out.state := by
  rw [next, h]

theorem exec_of_not_succeeds {deps : Externals} {s : State} {l : Label}
    (h : ¬ Succeeds deps s l) : ∃ e, exec deps l.1 s l.2 = .error e := by
  cases hexec : exec deps l.1 s l.2 with
  | error e => exact ⟨e, rfl⟩
  | ok out => exact absurd ⟨out, hexec⟩ h

/-- A call that panics changes nothing. -/
theorem next_of_not_succeeds {deps : Externals} {s : State} {l : Label}
    (h : ¬ Succeeds deps s l) : next deps s l = s := by
  rcases exec_of_not_succeeds h with ⟨e, hexec⟩
  rw [next, hexec]

/-- A successful call of a method of the contract, as a change of the state. -/
theorem next_of_succeeds {deps : Externals} {s : State} {l : Label} {c : Contract}
    (h : Succeeds deps s l) (hc : s.contract = some c) (hcall : ∀ plugins, l.2 ≠ .plugin plugins) :
    next deps s l = { s with contract := some (l.2.effect c) } := by
  rcases h with ⟨out, hout⟩
  rw [next_of_ok hout, ← exec_contract hout hc, ← exec_plugins hout hc hcall]

/-- All a step can do: the effect of a successful call, an initialization, or nothing. -/
theorem next_cases (deps : Externals) (s : State) (l : Label) :
    (∃ c, s.contract = some c ∧ Succeeds deps s l ∧
        (next deps s l).contract = some (l.2.effect c)) ∨
      (∃ ownerId mpcContractId mpcDomainId, s.contract = none ∧ Succeeds deps s l ∧
        l.2 = .new ownerId mpcContractId mpcDomainId ∧
        (next deps s l).contract = some (Contract.new mpcContractId mpcDomainId)) ∨
      (¬ Succeeds deps s l ∧ next deps s l = s) := by
  by_cases hs : Succeeds deps s l
  · rcases hs with ⟨out, hout⟩
    rw [next_of_ok hout]
    rcases exec_initialized hout with ⟨c, hc⟩ |
      ⟨hc, ownerId, mpcContractId, mpcDomainId, hcall, hnew⟩
    · exact Or.inl ⟨c, hc, ⟨out, hout⟩, exec_contract hout hc⟩
    · exact Or.inr (Or.inl ⟨ownerId, mpcContractId, mpcDomainId, hc, ⟨out, hout⟩, hcall, hnew⟩)
  · exact Or.inr (Or.inr ⟨hs, next_of_not_succeeds hs⟩)

/-! ## Invariants of the contract -/

/-- A property of the contract, if there is one. -/
def Holds (inv : Contract → Prop) (s : State) : Prop := ∀ c, s.contract = some c → inv c

/-- What a fresh contract has and every successful call keeps, a step keeps. -/
theorem holds_next {deps : Externals} {inv : Contract → Prop}
    (hnew : ∀ mpcContractId mpcDomainId, inv (Contract.new mpcContractId mpcDomainId))
    {s : State} {l : Label}
    (hstep : ∀ c, s.contract = some c → Succeeds deps s l → inv c → inv (l.2.effect c))
    (hs : Holds inv s) : Holds inv (next deps s l) := by
  intro c' hc'
  rcases next_cases deps s l with ⟨c, hc, hsucc, heffect⟩ |
    ⟨-, mpcContractId, mpcDomainId, -, -, -, hinit⟩ | ⟨-, hsame⟩
  · rw [heffect] at hc'
    rw [← Option.some.inj hc']
    exact hstep c hc hsucc (hs c hc)
  · rw [hinit] at hc'
    rw [← Option.some.inj hc']
    exact hnew mpcContractId mpcDomainId
  · rw [hsame] at hc'
    exact hs c' hc'

theorem holds_deployed (inv : Contract → Prop) : Holds inv State.deployed := by
  intro c hc
  cases hc

end NearKms.Kms
